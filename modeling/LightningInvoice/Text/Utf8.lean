/-!
UTF-8. `encode` writes characters as bytes; `decode` reads them back, or says where the first
ill-formed sequence starts and how many of its bytes belong to it. The well-formed sequences are
the ones whose later bytes lie in the ranges that `tails?` gives for the first byte.
-/
namespace LightningInvoice.Utf8

def encode (text : List Char) : List UInt8 := text.flatMap String.utf8EncodeChar

/-- Where bytes stop being UTF-8. -/
structure Fault where
  /-- How many bytes before the fault are well-formed. -/
  index : Nat
  /-- The length of the ill-formed sequence; none if the bytes end inside a sequence. -/
  length : Option Nat
  deriving DecidableEq

def Fault.message (f : Fault) : String :=
  match f.length with
  | some n =>
    "invalid utf-8 sequence of " ++ toString n ++ " bytes from index " ++ toString f.index
  | none => "incomplete utf-8 byte sequence from index " ++ toString f.index

structure ByteRange where
  least : UInt8
  greatest : UInt8

def ByteRange.contains (r : ByteRange) (b : UInt8) : Bool := r.least ≤ b && b ≤ r.greatest

def continuation : ByteRange := ⟨0x80, 0xbf⟩

/-- The ranges of the bytes that follow a first byte. The second byte is restricted where the
sequence would be longer than needed, a surrogate, or beyond the last character. -/
def tails? (first : UInt8) : Option (List ByteRange) :=
  if first ≤ 0x7f then some []
  else if first < 0xc2 then none
  else if first ≤ 0xdf then some [continuation]
  else if first = 0xe0 then some [⟨0xa0, 0xbf⟩, continuation]
  else if first = 0xed then some [⟨0x80, 0x9f⟩, continuation]
  else if first ≤ 0xef then some [continuation, continuation]
  else if first = 0xf0 then some [⟨0x90, 0xbf⟩, continuation, continuation]
  else if first ≤ 0xf3 then some [continuation, continuation, continuation]
  else if first = 0xf4 then some [⟨0x80, 0x8f⟩, continuation, continuation]
  else none

/-- Matches bytes with ranges one by one: the length of the sequence that fails after `seen`
good bytes, or nothing if every range is met. The inner option is empty if the bytes run out. -/
def mismatch (seen : Nat) : List ByteRange → List UInt8 → Option (Option Nat)
  | [], _ => none
  | _ :: _, [] => some none
  | r :: ranges, b :: rest =>
    if r.contains b then mismatch (seen + 1) ranges rest else some (some seen)

def scalar (first : UInt8) (later : List UInt8) : Nat :=
  later.foldl (fun v b => v * 64 + b.toNat % 64)
    (match later.length with
     | 0 => first.toNat
     | 1 => first.toNat % 32
     | 2 => first.toNat % 16
     | _ => first.toNat % 8)

/-- Reads bytes as characters; `index` bytes were read before. -/
def decodeFrom (index : Nat) : List UInt8 → Except Fault (List Char)
  | [] => .ok []
  | first :: rest =>
    match tails? first with
    | none => .error ⟨index, some 1⟩
    | some ranges =>
      match mismatch 1 ranges rest with
      | some length => .error ⟨index, length⟩
      | none =>
        match decodeFrom (index + 1 + ranges.length) (rest.drop ranges.length) with
        | .ok text => .ok (Char.ofNat (scalar first (rest.take ranges.length)) :: text)
        | .error f => .error f
termination_by bytes => bytes.length
decreasing_by simp only [List.length_drop, List.length_cons]; omega

def decode (bytes : List UInt8) : Except Fault (List Char) := decodeFrom 0 bytes

end LightningInvoice.Utf8
