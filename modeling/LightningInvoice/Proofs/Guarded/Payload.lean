import LightningInvoice.Payload
import LightningInvoice.Proofs.Guarded.Features
import LightningInvoice.Proofs.Route
import LightningInvoice.Signature

/-!
Payloads and signatures, read by steps that may have no value. What a reader gives is wrapped in an
`Option`, which is empty where a step leaves the data; an error of the request itself stays inside.
No step leaves the data, and the shifts stay below eight places because a packer never holds more
than seven bits.
-/
namespace LightningInvoice.Guarded

def absorb (p : Packer) (s : Symbol) : Option (Option UInt8 × Packer) :=
  if 3 ≤ p.count then do
    let high ← shiftRight? (s.setWidth 8) (← sub? p.count 3)
    let places ← sub? 11 p.count
    -- Nothing of the symbol is left if all eight places are taken.
    let low ← if places < 8 then shiftLeft? (s.setWidth 8) places else some 0
    return (some ⟨p.held ||| high⟩, ⟨← sub? p.count 3, low⟩)
  else do
    let low ← shiftLeft? (s.setWidth 8) (← sub? 3 p.count)
    return (none, ⟨p.count + 5, p.held ||| low⟩)

theorem absorb_eq {p : Packer} (bounded : p.count < 8) (s : Symbol) :
    absorb p s = some (p.absorb s) := by
  unfold absorb Packer.absorb
  split
  · rename_i enough
    rw [sub?_of_le enough, sub?_of_le (show p.count ≤ 11 by omega)]
    simp only [Option.bind_eq_bind, Option.bind_some,
      shiftRight?_of_lt (show p.count - 3 < 8 by omega)]
    split
    · rename_i low
      rw [shiftLeft?_of_lt low]
      rfl
    · rename_i high
      -- Only with three bits held, when the byte is filled to the last place.
      rw [BitVec.shiftLeft_eq_zero (show 8 ≤ 11 - p.count by omega)]
      rfl
  · rename_i few
    rw [sub?_of_le (show p.count ≤ 3 by omega)]
    simp only [Option.bind_eq_bind, Option.bind_some,
      shiftLeft?_of_lt (show 3 - p.count < 8 by omega)]
    rfl

def run (leftover : Leftover) (p : Packer) : List Symbol → Option (List UInt8)
  | [] => some (p.flush leftover).1.toList
  | s :: rest => do
    let (byte, after) ← absorb p s
    return byte.toList ++ (← run leftover after rest)

theorem run_eq (leftover : Leftover) {p : Packer} (bounded : p.count < 8) (symbols : List Symbol) :
    run leftover p symbols = some (p.run leftover symbols) := by
  induction symbols generalizing p with
  | nil => rfl
  | cons s rest ih =>
    have after : (p.absorb s).2.count < 8 := by
      rw [Packer.count_absorb bounded]
      exact Nat.mod_lt _ (by decide)
    rw [run, absorb_eq bounded, Packer.run]
    simp only [Option.bind_eq_bind, Option.bind_some, ih after]
    rfl

def pack (leftover : Leftover) (symbols : List Symbol) : Option (List UInt8) :=
  run leftover Packer.idle symbols

theorem pack_eq (leftover : Leftover) (symbols : List Symbol) :
    pack leftover symbols = some (LightningInvoice.pack leftover symbols) :=
  run_eq leftover (by decide) symbols

/-- The first `n` bytes, with zeros where there are fewer. -/
def fill (n : Nat) (bytes : List UInt8) : Bytes n :=
  ⟨(bytes ++ List.replicate n 0).take n, by
    rw [List.length_take, List.length_append, List.length_replicate]; omega⟩

theorem fill_of_length {n : Nat} {bytes : List UInt8} (length : bytes.length = n) :
    fill n bytes = ⟨bytes, length⟩ := by
  apply Bytes.ext
  show (bytes ++ List.replicate n 0).take n = bytes
  exact List.take_left' length

def fixed (width : Nat) (payload : List Symbol) :
    Option (Except ParseError (Bytes (width * 5 / 8))) :=
  if payload.length ≠ width then some (.error .skip)
  else do return .ok (fill _ (← pack .dropped payload))

theorem fixed_eq (width : Nat) (payload : List Symbol) :
    fixed width payload = some (Payload.fixed width payload) := by
  unfold fixed Payload.fixed
  by_cases length : payload.length = width
  · rw [if_neg (not_not_intro length), dif_pos length, pack_eq, Option.bind_eq_bind,
      Option.bind_some, fill_of_length]
    rfl
  · rw [if_pos length, dif_neg length]

def text (payload : List Symbol) : Option (Except ParseError String) := do
  match Utf8.decode (← pack .dropped payload) with
  | .ok characters => return .ok (String.ofList characters)
  | .error fault => return .error (.malformed (.invalidDescription fault))

theorem text_eq (payload : List Symbol) : text payload = some (Payload.text payload) := by
  unfold text Payload.text Payload.bytes
  rw [pack_eq, Option.bind_eq_bind, Option.bind_some]
  cases Utf8.decode (LightningInvoice.pack .dropped payload) <;> rfl

def fallback : List Symbol → Option (Except ParseError Fallback)
  | [] => some (.error .skip)
  | version :: program =>
    if Payload.greatestVersion < version.toByte then some (.error .skip)
    else do return .ok ⟨version.toByte, ← pack .dropped program⟩

theorem fallback_eq (payload : List Symbol) :
    fallback payload = some (Payload.fallback payload) := by
  cases payload with
  | nil => rfl
  | cons version program =>
    show (if _ then _ else _) = some (if _ then _ else _)
    by_cases unknown : Payload.greatestVersion < version.toByte
    · rw [if_pos unknown, if_pos unknown]
    · rw [if_neg unknown, if_neg unknown, pack_eq]
      rfl

def hop (bytes : List UInt8) : Option Hop := do
  let node ← bytes? 0 33 33 bytes
  let channel ← bytes? 33 41 8 bytes
  let baseFee ← bytes? 41 45 4 bytes
  let proportionalFee ← bytes? 45 49 4 bytes
  let expiryDelta ← bytes? 49 51 2 bytes
  return {
    node := node
    channel := UInt64.ofNat channel.number
    baseFee := UInt32.ofNat baseFee.number
    proportionalFee := UInt32.ofNat proportionalFee.number
    expiryDelta := UInt16.ofNat expiryDelta.number }

theorem hop_eq (bytes : Bytes 51) : hop bytes.toList = some (Hop.ofBytes bytes) := by
  have part := fun start n (inside : start + n ≤ 51) => bytes?_of_le bytes.length_toList inside
  unfold hop
  rw [part 0 33 (by decide), part 33 8 (by decide), part 41 4 (by decide), part 45 4 (by decide),
    part 49 2 (by decide)]
  rfl

theorem pieces_eq {n : Nat} {bytes : List UInt8} {parts : List (Bytes (n + 1))}
    (cut : Bytes.pieces? n bytes = some parts) : pieces n bytes = parts.map Bytes.toList := by
  fun_induction Bytes.pieces? n bytes generalizing parts with
  | case1 =>
    obtain rfl := Option.some.inj cut
    rw [pieces, if_neg (by simp)]
    rfl
  | case2 bytes _ enough ih =>
    obtain ⟨more, rest, rfl⟩ := Option.map_eq_some_iff.mp cut
    rw [pieces, if_pos enough, ih rest]
    rfl
  | case3 => simp at cut

def route (payload : List Symbol) : Option (Except ParseError (List Hop)) := do
  let bytes ← pack .dropped payload
  if bytes = [] ∨ bytes.length % 51 ≠ 0 then return .error .skip
  else return .ok (← (pieces 50 bytes).mapM hop)

theorem route_eq (payload : List Symbol) : route payload = some (Payload.route payload) := by
  unfold route Payload.route Hop.listOfSymbols?
  rw [pack_eq, Option.bind_eq_bind, Option.bind_some]
  generalize LightningInvoice.pack .dropped payload = bytes
  cases cut : Bytes.pieces? 50 bytes with
  | none =>
    rw [if_pos (Or.inr (Bytes.pieces?_eq_none_iff.mp cut))]
    rfl
  | some parts =>
    have count := Bytes.length_pieces? cut
    have hops : (pieces 50 bytes).mapM hop = some (parts.map Hop.ofBytes) := by
      rw [pieces_eq cut, List.mapM_map]
      exact mapM_eq_some fun part _ => hop_eq part
    cases parts with
    | nil =>
      have none := List.length_eq_zero_iff.mp (count.trans (Nat.zero_mul _))
      rw [if_pos (Or.inl none)]
      rfl
    | cons part more =>
      have some : bytes ≠ [] := by
        rintro rfl
        simp at count
      have whole : bytes.length % 51 = 0 := by rw [count, Nat.mul_mod_left]
      rw [if_neg (by simp [some, whole]), hops]
      rfl

def ofKind (kind : FieldKind) (payload : List Symbol) : Option (Except ParseError Tag) :=
  match kind with
  | .paymentHash => do return (← fixed 52 payload).map .paymentHash
  | .description => do return (← text payload).map .description
  | .payee => do return (← fixed 53 payload).map .payee
  | .descriptionHash => do return (← fixed 52 payload).map .descriptionHash
  | .expiry => some ((Payload.number payload).map .expiry)
  | .minFinalCltv => some ((Payload.number payload).map .minFinalCltv)
  | .fallback => do return (← fallback payload).map .fallback
  | .route => do return (← route payload).map .route
  | .paymentSecret => do return (← fixed 52 payload).map .paymentSecret
  | .metadata => do return .ok (.metadata (← pack .dropped payload))
  | .features => do return .ok (.features (← features payload))

theorem ofKind_eq (kind : FieldKind) (payload : List Symbol) :
    ofKind kind payload = some (Tag.ofKind kind payload) := by
  cases kind <;>
    simp only [ofKind, Tag.ofKind, fixed_eq, text_eq, fallback_eq, route_eq, pack_eq,
      features_eq] <;> rfl

def tag (field : List Symbol) : Option (Except ParseError Tag) :=
  if field.length < 3 then some (.error (.malformed .fieldsCutShort))
  else do
    let code ← field[0]?
    let payload ← drop? 3 field
    match FieldKind.ofCode? code with
    | some kind => ofKind kind payload
    | none => return .ok (.unknown ⟨code, payload⟩)

theorem tag_eq (field : List Symbol) : tag field = some (Tag.ofField field) := by
  match field with
  | [] | [_] | [_, _] => rfl
  | code :: upper :: lower :: payload =>
    have behind : drop? 3 (code :: upper :: lower :: payload) = some payload :=
      drop?_of_le (by simp)
    rw [tag, if_neg (by simp), behind, Tag.ofField, Tag.ofPayload]
    simp only [List.getElem?_cons_zero, Option.bind_eq_bind, Option.bind_some]
    cases FieldKind.ofCode? code with
    | none => rfl
    | some kind => exact ofKind_eq kind payload

def signature (symbols : List Symbol) : Option (Except ParseError Signature) :=
  if symbols.length ≠ Signature.width then some (.error (.malformed .shortData))
  else do
    let bytes ← pack .dropped symbols
    let flag ← bytes[64]?
    if 3 < flag then return .error (.malformed (.invalidRecoveryFlag flag))
    else return .ok ⟨← bytes? 0 32 32 bytes, ← bytes? 32 64 32 bytes, flag⟩

theorem signature_eq (symbols : List Symbol) :
    signature symbols = some (Signature.ofSymbols symbols) := by
  unfold signature Signature.ofSymbols
  by_cases length : symbols.length = Signature.width
  · have total := Signature.length_pack_width length
    have part := fun start n (inside : start + n ≤ 65) => bytes?_of_le total inside
    rw [if_neg (not_not_intro length), dif_pos length, pack_eq, Option.bind_eq_bind,
      Option.bind_some, List.getElem?_eq_getElem (show 64 < _ by omega), Option.bind_eq_bind,
      Option.bind_some, part 0 32 (by decide), part 32 32 (by decide)]
    show (if _ then _ else _) = some (if _ then _ else _)
    by_cases high : (3 : UInt8) < (LightningInvoice.pack .dropped symbols)[64]
    · rw [if_pos high]
      exact congrArg some (if_pos high).symm
    · rw [if_neg high]
      exact congrArg some (if_neg high).symm
  · rw [if_pos length, dif_neg length]

end LightningInvoice.Guarded
