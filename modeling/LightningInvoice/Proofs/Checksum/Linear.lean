import LightningInvoice.Checksum
import Mathlib.Logic.Function.Iterate

/-!
The remainder of a message is linear over exclusive or. Two messages of one length leave remainders
whose difference is that of their symbol-wise difference, read from zero; and a zero symbol moves
the remainder by a map that can be undone.
-/
namespace LightningInvoice.Checksum

/-- The remainder after a zero symbol. -/
def advance (c : Remainder) : Remainder := c <<< 5 ^^^ feedback c

def lead (c : Remainder) : Symbol := c.extractLsb' 25 5

def excess (s : Symbol) : Remainder := feedback (s.setWidth 30 <<< 25)

theorem step_eq (c : Remainder) (s : Symbol) : step c s = advance c ^^^ s.setWidth 30 := by
  rw [step, advance]
  ac_rfl

theorem step_zero (c : Remainder) : step c 0 = advance c := (step_eq c 0).trans BitVec.xor_zero

theorem choose_xor (a b : Bool) (g : Remainder) :
    (if (a ^^ b) = true then g else 0) =
      (if a = true then g else 0) ^^^ (if b = true then g else 0) := by
  cases a <;> cases b <;> simp

theorem feedback_xor (c d : Remainder) : feedback (c ^^^ d) = feedback c ^^^ feedback d := by
  simp only [feedback, generators, List.zipIdx_cons, List.zipIdx_nil, List.map_cons, List.map_nil,
    List.foldl_cons, List.foldl_nil, BitVec.getLsbD_xor, choose_xor]
  ac_rfl

theorem advance_xor (c d : Remainder) : advance (c ^^^ d) = advance c ^^^ advance d := by
  simp only [advance, BitVec.shiftLeft_xor_distrib, feedback_xor]
  ac_rfl

theorem advance_zero : advance 0 = 0 := by decide

theorem step_zero_left (s : Symbol) : step 0 s = s.setWidth 30 := by
  rw [step_eq, advance_zero]
  exact BitVec.zero_xor

theorem step_xor (c d : Remainder) (s t : Symbol) :
    step (c ^^^ d) (s ^^^ t) = step c s ^^^ step d t := by
  simp only [step_eq, advance_xor, BitVec.setWidth_xor]
  ac_rfl

theorem foldl_step_xor (c d : Remainder) {xs ys : List Symbol} (lengths : xs.length = ys.length) :
    (List.zipWith (· ^^^ ·) xs ys).foldl step (c ^^^ d) = xs.foldl step c ^^^ ys.foldl step d := by
  induction xs generalizing c d ys with
  | nil =>
    rw [List.length_eq_zero_iff.mp lengths.symm]
    rfl
  | cons x rest ih =>
    obtain ⟨y, more, rfl⟩ := List.exists_cons_of_length_eq_add_one lengths.symm
    rw [List.zipWith_cons_cons, List.foldl_cons, List.foldl_cons, List.foldl_cons, step_xor]
    exact ih _ _ (Nat.succ.inj lengths)

theorem foldl_step_xor_foldl_step (c d : Remainder) (symbols : List Symbol) :
    symbols.foldl step c ^^^ symbols.foldl step d = advance^[symbols.length] (c ^^^ d) := by
  induction symbols generalizing c d with
  | nil => rfl
  | cons s rest ih =>
    have sum := step_xor c d s s
    rw [BitVec.xor_self] at sum
    rw [List.foldl_cons, List.foldl_cons, ih, ← sum, List.length_cons, Function.iterate_succ_apply]
    exact congrArg _ (step_zero _)

theorem foldl_step_zeros (c : Remainder) {zeros : List Symbol} (all : ∀ s ∈ zeros, s = 0) :
    zeros.foldl step c = advance^[zeros.length] c := by
  induction zeros generalizing c with
  | nil => rfl
  | cons s rest ih =>
    rw [List.foldl_cons, ih _ fun t member => all t (List.mem_cons_of_mem _ member),
      all s List.mem_cons_self, step_zero, List.length_cons, Function.iterate_succ_apply]

/-! ### Undoing a step -/

theorem getLsbD_lead (c : Remainder) {i : Nat} (h : i < 5) :
    (lead c).getLsbD i = c.getLsbD (25 + i) := by
  rw [lead, BitVec.getLsbD_extractLsb', decide_eq_true h, Bool.true_and]

theorem feedback_congr {c d : Remainder} (h : lead c = lead d) : feedback c = feedback d := by
  have bits : ∀ i, i < 5 → c.getLsbD (25 + i) = d.getLsbD (25 + i) := by
    intro i hi
    rw [← getLsbD_lead c hi, ← getLsbD_lead d hi, h]
  simp only [feedback, generators, List.zipIdx_cons, List.zipIdx_nil, List.map_cons, List.map_nil,
    bits 0 (by decide), bits (0 + 1) (by decide), bits (0 + 1 + 1) (by decide),
    bits (0 + 1 + 1 + 1) (by decide), bits (0 + 1 + 1 + 1 + 1) (by decide)]

theorem feedback_eq (c : Remainder) : feedback c = excess (lead c) := by
  apply feedback_congr
  apply BitVec.eq_of_getLsbD_eq
  intro i hi
  rw [getLsbD_lead _ hi, getLsbD_lead _ hi, BitVec.getLsbD_shiftLeft, BitVec.getLsbD_setWidth,
    Nat.add_sub_cancel_left, getLsbD_lead _ hi]
  simp [show i < 30 by omega, show 25 + i < 30 by omega]

/-- The lowest coefficient of the feedback tells which leading coefficient it is of. -/
theorem excess_low : ∀ s : Symbol, (excess s).extractLsb' 0 5 = 0 → s = 0 := by decide

theorem eq_zero_of_advance_eq_zero {c : Remainder} (h : advance c = 0) : c = 0 := by
  have low : (excess (lead c)).extractLsb' 0 5 = 0 := by
    rw [advance, feedback_eq] at h
    rw [← BitVec.xor_eq_zero_iff.mp h]
    apply BitVec.eq_of_getLsbD_eq
    intro i hi
    rw [BitVec.getLsbD_extractLsb', BitVec.getLsbD_shiftLeft]
    simp [hi]
  have leading := excess_low _ low
  have shifted : c <<< 5 = 0 := by
    rw [advance, feedback_eq, leading] at h
    exact BitVec.xor_zero.symm.trans h
  apply BitVec.eq_of_getLsbD_eq
  intro i hi
  by_cases upper : 25 ≤ i
  · have bit := getLsbD_lead c (i := i - 25) (by omega)
    rw [leading, Nat.add_sub_cancel' upper] at bit
    rw [← bit]
    simp
  · have bit := congrArg (·.getLsbD (i + 5)) shifted
    simp only [BitVec.getLsbD_shiftLeft] at bit
    simpa [show i + 5 < 30 by omega] using bit

theorem advance_iterate_zero (n : Nat) : advance^[n] 0 = 0 :=
  Function.iterate_fixed advance_zero n

theorem eq_zero_of_advance_iterate_eq_zero {n : Nat} {c : Remainder} (h : advance^[n] c = 0) :
    c = 0 := by
  induction n generalizing c with
  | zero => exact h
  | succ n ih => exact eq_zero_of_advance_eq_zero (ih h)

end LightningInvoice.Checksum
