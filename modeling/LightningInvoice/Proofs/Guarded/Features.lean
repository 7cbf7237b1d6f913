import LightningInvoice.Proofs.Features
import LightningInvoice.Proofs.Guarded.Access

/-! Setting feature bits one by one in bytes that start as zeros gives the same bytes as cutting the
list of all bits into pieces of eight, and every bit finds its byte. -/
namespace LightningInvoice.Guarded
open Features

/-- Sets one bit of bytes whose lowest eight bits come first. -/
def setFlag (flags : List UInt8) (bit : Nat) : Option (List UInt8) := do
  let mask ← shiftLeft? 1 (bit % 8)
  let byte ← flags[bit / 8]?
  set? (bit / 8) ⟨byte.toBitVec ||| mask⟩ flags

theorem bitAt_set {flags : List UInt8} {bit : Nat} (inside : bit / 8 < flags.length) (n : Nat) :
    bitAt (flags.set (bit / 8) ⟨flags[bit / 8].toBitVec ||| 1#8 <<< (bit % 8)⟩) n =
      (bitAt flags n || n == bit) := by
  unfold bitAt
  rw [List.getElem?_set]
  split
  · rename_i same
    have mask : (1#8 <<< (bit % 8)).getLsbD (n % 8) = (n == bit) := by
      rw [BitVec.getLsbD_shiftLeft, BitVec.getLsbD_one, Bool.eq_iff_iff]
      simp only [Bool.and_eq_true, Bool.not_eq_true', decide_eq_true_eq, decide_eq_false_iff_not,
        beq_iff_eq]
      omega
    rw [← same, Option.any_some, List.getElem?_eq_getElem inside, Option.any_some,
      BitVec.getLsbD_or, mask]
  · rename_i other
    have : n ≠ bit := by rintro rfl; exact other rfl
    simp [this]

theorem setFlag_eq {flags : List UInt8} {bit : Nat} (inside : bit < 8 * flags.length) :
    ∃ after, setFlag flags bit = some after ∧ after.length = flags.length ∧
      ∀ n, bitAt after n = (bitAt flags n || n == bit) := by
  have byte : bit / 8 < flags.length := by omega
  refine ⟨_, ?_, ?_, bitAt_set byte⟩
  · rw [setFlag, shiftLeft?_of_lt (Nat.mod_lt _ (by decide)), List.getElem?_eq_getElem byte]
    exact set?_of_lt byte
  · rw [List.length_set]

def setBit (flags : List UInt8) : Bool × Nat → Option (List UInt8)
  | (b, n) => if b then setFlag flags n else some flags

theorem setBit_eq {flags : List UInt8} {n : Nat} (b : Bool) (inside : n < 8 * flags.length) :
    ∃ after, setBit flags (b, n) = some after ∧ after.length = flags.length ∧
      ∀ m, bitAt after m = (bitAt flags m || (b && m == n)) := by
  cases b with
  | false => exact ⟨flags, rfl, rfl, by simp⟩
  | true =>
    obtain ⟨after, set, length, bits⟩ := setFlag_eq inside
    exact ⟨after, set, length, by simpa using bits⟩

/-- Sets the flags of a list of bits, the first of which has number `start`. -/
def setBits (start : Nat) (bits : List Bool) (flags : List UInt8) : Option (List UInt8) :=
  (bits.zipIdx start).foldlM setBit flags

theorem setBits_append (start : Nat) (a b : List Bool) (flags : List UInt8) :
    setBits start (a ++ b) flags =
      (setBits start a flags).bind (setBits (start + a.length) b) := by
  rw [setBits, List.zipIdx_append, List.foldlM_append]
  rfl

theorem setBits_eq {start : Nat} {bits : List Bool} {flags : List UInt8}
    (inside : start + bits.length ≤ 8 * flags.length) :
    ∃ after, setBits start bits flags = some after ∧ after.length = flags.length ∧
      ∀ m, bitAt after m =
        (bitAt flags m || (decide (start ≤ m) && bits.getD (m - start) false)) := by
  induction bits generalizing start flags with
  | nil => exact ⟨flags, rfl, rfl, by simp⟩
  | cons b rest ih =>
    rw [List.length_cons] at inside
    have first : start < 8 * flags.length := by omega
    obtain ⟨middle, set, length, bits⟩ := setBit_eq b first
    have later : start + 1 + rest.length ≤ 8 * middle.length := by omega
    obtain ⟨after, setRest, lengthRest, bitsRest⟩ := ih later
    have both : setBits start (b :: rest) flags = some after := by
      rw [setBits, List.zipIdx_cons, List.foldlM_cons, set]
      exact setRest
    refine ⟨after, both, lengthRest.trans length, fun m => ?_⟩
    rw [bitsRest, bits, Bool.or_assoc]
    congr 1
    -- A bit is set before the rest, by the first bit, or by the rest.
    rcases Nat.lt_trichotomy m start with before | rfl | behind
    · simp [show ¬ start ≤ m by omega, show ¬ start + 1 ≤ m by omega, show m ≠ start by omega]
    · simp [show ¬ m + 1 ≤ m by omega]
    · rw [show m - start = (m - (start + 1)) + 1 by omega]
      simp [show start ≤ m by omega, show start + 1 ≤ m by omega, show m ≠ start by omega]

/-- Sets the flags of the bits of one symbol; `place` symbols come after it. -/
def setFlags (flags : List UInt8) : Symbol × Nat → Option (List UInt8)
  | (s, place) =>
    (List.range 5).foldlM (fun flags bit => do
      let mask ← shiftLeft? 1 bit
      if s.toByte.toBitVec &&& mask ≠ 0 then setFlag flags (place * 5 + bit) else return flags)
      flags

def lowBits (s : Symbol) : List Bool := (List.range 5).map s.getLsbD

theorem and_mask_ne_zero : ∀ s : Symbol, ∀ bit < 5,
    s.toByte.toBitVec &&& 1#8 <<< bit ≠ 0 ↔ s.getLsbD bit = true := by decide

theorem setFlags_eq (flags : List UInt8) (s : Symbol) (place : Nat) :
    setFlags flags (s, place) = setBits (place * 5) (lowBits s) flags := by
  have one : ∀ bit, bit < 5 → ∀ flags, (do
      let mask ← shiftLeft? 1 bit
      if s.toByte.toBitVec &&& mask ≠ 0 then setFlag flags (place * 5 + bit) else return flags) =
      if s.getLsbD bit then setFlag flags (place * 5 + bit) else some flags := by
    intro bit low flags
    rw [shiftLeft?_of_lt (by omega), Option.bind_eq_bind, Option.bind_some]
    simp only [show (1 : BitVec 8) = 1#8 from rfl, and_mask_ne_zero s bit low]
    rfl
  rw [setFlags, setBits, lowBits, show List.range 5 = [0, 1, 2, 3, 4] from rfl]
  simp only [List.map_cons, List.map_nil, List.zipIdx_cons, List.zipIdx_nil, List.foldlM_cons,
    List.foldlM_nil, one 0 (by decide), one 1 (by decide), one 2 (by decide), one 3 (by decide),
    one 4 (by decide)]
  rfl

theorem foldlM_setFlags (symbols : List Symbol) (place : Nat) (flags : List UInt8) :
    (symbols.zipIdx place).foldlM setFlags flags =
      setBits (place * 5) (symbols.flatMap lowBits) flags := by
  induction symbols generalizing place flags with
  | nil => rfl
  | cons s rest ih =>
    rw [List.zipIdx_cons, List.foldlM_cons, setFlags_eq, List.flatMap_cons, setBits_append]
    have next : (rest.zipIdx (place + 1)).foldlM setFlags =
        setBits (place * 5 + (lowBits s).length) (rest.flatMap lowBits) := by
      funext flags
      rw [ih, Nat.succ_mul]
      rfl
    exact congrArg _ next

def features (payload : List Symbol) : Option Features := do
  let flags ← payload.reverse.zipIdx.foldlM setFlags
    (List.replicate ((payload.length * 5 + 7) / 8) 0)
  return Features.ofLittleEndian flags

theorem features_eq (payload : List Symbol) :
    features payload = some (Features.ofSymbols payload) := by
  have length := length_bitsFromEnd payload
  have room : 0 + (bitsFromEnd payload).length ≤
      8 * (List.replicate ((payload.length * 5 + 7) / 8) (0 : UInt8)).length := by
    rw [length, List.length_replicate]
    omega
  obtain ⟨after, set, afterLength, bits⟩ := setBits_eq room
  have same : after = bytesOfBits (bitsFromEnd payload) := by
    apply eq_of_bitAt
    · rw [afterLength, List.length_replicate, length_bytesOfBits, length]
    · intro n
      rw [bits, bitAt_replicate, bitAt_bytesOfBits]
      simp
  rw [features, foldlM_setFlags, Nat.zero_mul]
  have whole : payload.reverse.flatMap lowBits = bitsFromEnd payload := rfl
  rw [whole, set, same]
  rfl

end LightningInvoice.Guarded
