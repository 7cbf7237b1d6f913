import LightningInvoice.Symbol

/-!
Feature bits. They are kept as bytes, the lowest eight bits first, and never with a zero byte at
the end, so that equal sets of bits are equal values. In a payment request the bits stand the other
way round: bit zero is the last bit of the last symbol.
-/
namespace LightningInvoice

structure Features where
  /-- Bit `n` is bit `n % 8` of byte `n / 8`. -/
  flags : List UInt8
  trimmed : flags.getLast? ≠ some 0
  deriving DecidableEq

namespace Features

def trim : List UInt8 → List UInt8
  | [] => []
  | b :: rest =>
    match trim rest with
    | [] => if b = 0 then [] else [b]
    | c :: more => b :: c :: more

theorem getLast?_trim (bytes : List UInt8) : (trim bytes).getLast? ≠ some 0 := by
  induction bytes with
  | nil => simp [trim]
  | cons b rest ih =>
    rw [trim]
    split
    · split <;> simp_all
    · rename_i h
      rw [h] at ih
      rwa [List.getLast?_cons_cons]

/-- The features whose bits are given by bytes, the lowest eight bits first. -/
def ofLittleEndian (bytes : List UInt8) : Features := ⟨trim bytes, getLast?_trim bytes⟩

def empty : Features := ofLittleEndian []

def isSet (f : Features) (bit : Nat) : Bool :=
  f.flags[bit / 8]?.any fun b => b.toBitVec.getLsbD (bit % 8)

/-- The bits that are set, in ascending order. -/
def setBits (f : Features) : List Nat := (List.range (f.flags.length * 8)).filter f.isSet

/-- The byte of at most eight bits, the lowest first. -/
def byte (bits : List Bool) : UInt8 :=
  UInt8.ofNat (bits.foldr (fun b n => b.toNat + 2 * n) 0)

def bytesOfBits (bits : List Bool) : List UInt8 :=
  if bits = [] then [] else byte (bits.take 8) :: bytesOfBits (bits.drop 8)
termination_by bits.length
decreasing_by
  have := List.length_pos_iff.mpr ‹bits ≠ []›
  simp only [List.length_drop]; omega

/-- The bits of symbols from the last bit of the last symbol back to the first bit. -/
def bitsFromEnd (symbols : List Symbol) : List Bool :=
  symbols.reverse.flatMap fun s => (List.range 5).map s.getLsbD

def ofSymbols (symbols : List Symbol) : Features :=
  ofLittleEndian (bytesOfBits (bitsFromEnd symbols))

/-- A feature has a bit that demands it and, one above, a bit that offers it; either announces
it. -/
def announces (f : Features) (demanding : Nat) : Bool :=
  f.isSet demanding || f.isSet (demanding + 1)

def variableLengthOnion (f : Features) : Bool := f.announces 8

def paymentSecret (f : Features) : Bool := f.announces 14

def paymentSecretDemanded (f : Features) : Bool := f.isSet 14

def multiPart (f : Features) : Bool := f.announces 16

end Features
end LightningInvoice
