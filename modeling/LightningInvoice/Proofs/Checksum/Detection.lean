import LightningInvoice.Proofs.Checksum.Creation
import Mathlib.Tactic.IntervalCases

/-!
Which changes of a message the checksum detects. A change shows in the remainder as its syndrome,
the remainder of the symbol-wise difference read from zero. The syndrome of a burst of six symbols
is never zero, and neither is that of two symbols fewer than 1023 places apart.
-/
namespace LightningInvoice.Checksum

/-- What a difference of two messages makes of the difference of their remainders. -/
def syndrome (difference : List Symbol) : Remainder := difference.foldl step 0

theorem remainder_xor (front : List Symbol) {a b : List Symbol} (lengths : a.length = b.length) :
    remainder (front ++ a) ^^^ remainder (front ++ b) =
      syndrome (List.zipWith (· ^^^ ·) a b) := by
  have sum := foldl_step_xor (front.foldl step 1) (front.foldl step 1) lengths
  rw [BitVec.xor_self] at sum
  rw [remainder, remainder, List.foldl_append, List.foldl_append, ← sum]
  rfl

theorem syndrome_append (a b : List Symbol) : syndrome (a ++ b) = b.foldl step (syndrome a) :=
  List.foldl_append

theorem syndrome_zeros {zeros : List Symbol} (all : ∀ s ∈ zeros, s = 0) : syndrome zeros = 0 := by
  rw [syndrome, foldl_step_zeros 0 all, advance_iterate_zero]

theorem eq_zero_of_mem_take {e : List Symbol} {changed : Nat → Prop} {first n : Nat}
    (only : ∀ k s, e[k]? = some s → s ≠ 0 → changed k)
    (outside : ∀ k, first ≤ k → k < first + n → ¬ changed k) :
    ∀ s ∈ (e.drop first).take n, s = 0 := by
  intro s member
  obtain ⟨k, found⟩ := List.mem_iff_getElem?.mp member
  rw [List.getElem?_take, List.getElem?_drop] at found
  by_contra nonzero
  split at found
  · exact outside _ (Nat.le_add_right _ _) (by omega) (only _ s found nonzero)
  · exact absurd found (by simp)

theorem eq_zero_of_mem_drop {e : List Symbol} {changed : Nat → Prop} {first : Nat}
    (only : ∀ k s, e[k]? = some s → s ≠ 0 → changed k)
    (outside : ∀ k, first ≤ k → ¬ changed k) : ∀ s ∈ e.drop first, s = 0 := by
  rw [← List.take_length (l := e.drop first)]
  exact eq_zero_of_mem_take only fun k le _ => outside k le

/-! ### Bursts -/

theorem eq_zero_of_syndrome_eq_zero {burst : List Symbol} (short : burst.length ≤ 6)
    (h : syndrome burst = 0) : ∀ s ∈ burst, s = 0 := by
  have value : Symbol.number burst = 0 := by
    rw [← toNat_foldl_step short]
    exact congrArg BitVec.toNat h
  have zeros : Symbol.number (List.replicate burst.length (0 : Symbol)) = 0 := by
    have none : syndrome (List.replicate burst.length 0) = 0 :=
      syndrome_zeros fun _ member => List.eq_of_mem_replicate member
    rw [← toNat_foldl_step (by rw [List.length_replicate]; exact short)]
    exact congrArg BitVec.toNat none
  have same : burst = List.replicate burst.length 0 :=
    Symbol.number_injective List.length_replicate.symm (value.trans zeros.symm)
  intro s member
  rw [same] at member
  exact List.eq_of_mem_replicate member

theorem syndrome_burst_ne_zero {e : List Symbol} {start : Nat}
    (inside : ∀ k s, e[k]? = some s → s ≠ 0 → start ≤ k ∧ k < start + 6)
    (changed : ∃ s ∈ e, s ≠ 0) : syndrome e ≠ 0 := by
  intro zero
  have front : ∀ s ∈ (e.drop 0).take start, s = 0 := eq_zero_of_mem_take inside (by omega)
  have back : ∀ s ∈ (e.drop start).drop 6, s = 0 := by
    rw [List.drop_drop]
    exact eq_zero_of_mem_drop inside (by omega)
  have burst : ∀ s ∈ (e.drop start).take 6, s = 0 := by
    apply eq_zero_of_syndrome_eq_zero (List.length_take_le _ _)
    -- The zeros before the burst leave no trace, and those behind it can be undone.
    rw [← List.take_append_drop start e, ← List.take_append_drop 6 (e.drop start), syndrome_append,
      List.foldl_append, show syndrome (e.take start) = 0 from syndrome_zeros front,
      foldl_step_zeros _ back] at zero
    exact eq_zero_of_advance_iterate_eq_zero zero
  obtain ⟨s, member, nonzero⟩ := changed
  apply nonzero
  rw [← List.take_append_drop start e, ← List.take_append_drop 6 (e.drop start)] at member
  rcases List.mem_append.mp member with early | later
  · exact front s early
  · rcases List.mem_append.mp later with inner | late
    · exact burst s inner
    · exact back s late

/-! ### Pairs

Multiplication by a primitive element of the field of symbols commutes with `advance`, so it is
enough to follow the remainder 1. -/

/-- The product of a symbol and a primitive element of the field of 32 elements. -/
def double (s : Symbol) : Symbol := s <<< 1 ^^^ if s.getLsbD 4 then 9 else 0

/-- Every coefficient doubled. -/
def scale (c : Remainder) : Remainder :=
  (c &&& 0x1ef7bdef) <<< 1 ^^^ (c &&& 0x21084210) >>> 4 ^^^ (c &&& 0x21084210) >>> 1

theorem xor_and (c d mask : Remainder) : (c ^^^ d) &&& mask = (c &&& mask) ^^^ (d &&& mask) := by
  apply BitVec.eq_of_getLsbD_eq
  intro i _
  simp only [BitVec.getLsbD_and, BitVec.getLsbD_xor]
  exact Bool.and_xor_distrib_right _ _ _

theorem scale_xor (c d : Remainder) : scale (c ^^^ d) = scale c ^^^ scale d := by
  simp only [scale, xor_and, BitVec.shiftLeft_xor_distrib, BitVec.ushiftRight_xor_distrib]
  ac_rfl

theorem scale_shiftLeft (c : Remainder) : scale (c <<< 5) = scale c <<< 5 := by
  apply BitVec.eq_of_getLsbD_eq
  intro i hi
  simp only [scale, BitVec.getLsbD_xor, BitVec.getLsbD_shiftLeft, BitVec.getLsbD_and,
    BitVec.getLsbD_ushiftRight]
  interval_cases i <;> simp

theorem lead_scale (c : Remainder) : lead (scale c) = double (lead c) := by
  apply BitVec.eq_of_getLsbD_eq
  intro i hi
  rw [getLsbD_lead _ hi, double]
  simp only [scale, BitVec.getLsbD_xor, BitVec.getLsbD_shiftLeft, BitVec.getLsbD_and,
    BitVec.getLsbD_ushiftRight, getLsbD_lead c (show 4 < 5 by decide)]
  cases top : c.getLsbD (25 + 4) <;> interval_cases i <;> simp_all [lead]

theorem scale_excess : ∀ s : Symbol, scale (excess s) = excess (double s) := by decide

theorem setWidth_double : ∀ s : Symbol, (double s).setWidth 30 = scale (s.setWidth 30) := by decide

theorem advance_scale : Function.Commute advance scale := by
  intro c
  rw [advance, advance, feedback_eq, feedback_eq, lead_scale, ← scale_excess, ← scale_shiftLeft,
    ← scale_xor]

/-- The powers of the primitive element are all symbols but zero. -/
theorem exists_double_eq_one : ∀ s : Symbol, s ≠ 0 → ∃ n : Fin 31, double^[n.val] s = 1 := by
  decide +kernel

/-- Whether none of the next `n` remainders after `c` is a single symbol. -/
def escapes : Nat → Remainder → Bool
  | 0, _ => true
  | n + 1, c => decide (32 ≤ (advance c).toNat) && escapes n (advance c)

theorem escapes_one : escapes 1022 1 = true := by decide +kernel

theorem le_of_escapes {n d : Nat} {c : Remainder} (h : escapes n c = true) (positive : 0 < d)
    (le : d ≤ n) : 32 ≤ (advance^[d] c).toNat := by
  induction n generalizing c d with
  | zero => omega
  | succ n ih =>
    rw [escapes, Bool.and_eq_true, decide_eq_true_eq] at h
    obtain ⟨d, rfl⟩ : ∃ e, d = e + 1 := ⟨d - 1, by omega⟩
    rw [Function.iterate_succ_apply]
    by_cases first : d = 0
    · rw [first]
      exact h.1
    · exact ih h.2 (by omega) (by omega)

theorem advance_iterate_ne {a : Symbol} (nonzero : a ≠ 0) {d : Nat} (positive : 0 < d)
    (lt : d < 1023) (b : Symbol) : advance^[d] (a.setWidth 30) ≠ b.setWidth 30 := by
  intro same
  obtain ⟨n, unit⟩ := exists_double_eq_one a nonzero
  have scaled : ∀ s : Symbol, (double^[n.val] s).setWidth 30 = scale^[n.val] (s.setWidth 30) :=
    Function.Semiconj.iterate_right setWidth_double n.val
  have moved : advance^[d] 1 = (double^[n.val] b).setWidth 30 := by
    rw [scaled b, ← same, ← (advance_scale.iterate_iterate d n.val) (a.setWidth 30), ← scaled a,
      unit]
    rfl
  have far := le_of_escapes escapes_one positive (by omega)
  have near := (double^[n.val] b).isLt
  rw [moved, BitVec.toNat_setWidth, Nat.mod_eq_of_lt (by omega)] at far
  omega

theorem syndrome_pair_ne_zero {e : List Symbol} {i j : Nat} (order : i < j) (near : j < i + 1023)
    (only : ∀ k s, e[k]? = some s → s ≠ 0 → k = i ∨ k = j) {a b : Symbol} (first : e[i]? = some a)
    (nonzero : a ≠ 0) (second : e[j]? = some b) : syndrome e ≠ 0 := by
  intro zero
  have front : ∀ s ∈ (e.drop 0).take i, s = 0 := eq_zero_of_mem_take only (by omega)
  have between : ∀ s ∈ (e.drop (i + 1)).take (j - i - 1), s = 0 :=
    eq_zero_of_mem_take only (by omega)
  have back : ∀ s ∈ e.drop (j + 1), s = 0 := eq_zero_of_mem_drop only (by omega)
  obtain ⟨iLt, atI⟩ := List.getElem?_eq_some_iff.mp first
  obtain ⟨jLt, atJ⟩ := List.getElem?_eq_some_iff.mp second
  have behind : e.drop i = a :: e.drop (i + 1) := by rw [List.drop_eq_getElem_cons iLt, atI]
  have last : (e.drop (i + 1)).drop (j - i - 1) = b :: e.drop (j + 1) := by
    rw [List.drop_drop, show i + 1 + (j - i - 1) = j by omega, List.drop_eq_getElem_cons jLt, atJ]
  have gap : ((e.drop (i + 1)).take (j - i - 1)).length = j - i - 1 := by
    rw [List.length_take, List.length_drop]
    omega
  have alone : step 0 a = a.setWidth 30 := by
    rw [step_eq, advance_zero]
    exact BitVec.zero_xor
  rw [← List.take_append_drop i e, syndrome_append, behind,
    show syndrome (e.take i) = 0 from syndrome_zeros front, List.foldl_cons, alone,
    ← List.take_append_drop (j - i - 1) (e.drop (i + 1)), List.foldl_append,
    foldl_step_zeros _ between, gap, last, List.foldl_cons, step_eq, foldl_step_zeros _ back,
    ← Function.iterate_succ_apply' advance] at zero
  have cancelled := BitVec.xor_eq_zero_iff.mp (eq_zero_of_advance_iterate_eq_zero zero)
  exact advance_iterate_ne nonzero (Nat.succ_pos _) (by omega) b cancelled

/-! ### Changed messages -/

theorem syndrome_eq_zero_of_verify {head : List Char} {a b : List Symbol}
    (lengths : a.length = b.length) (validA : verify head a = true)
    (validB : verify head b = true) : syndrome (List.zipWith (· ^^^ ·) a b) = 0 := by
  rw [verify, beq_iff_eq] at validA validB
  rw [← remainder_xor (expand head) lengths, validA, validB]
  exact BitVec.xor_self

theorem getElem?_ne_of_difference {a b : List Symbol} {k : Nat} {s : Symbol}
    (found : (List.zipWith (· ^^^ ·) a b)[k]? = some s) (nonzero : s ≠ 0) : a[k]? ≠ b[k]? := by
  obtain ⟨x, y, atX, atY, rfl⟩ := List.getElem?_zipWith_eq_some.mp found
  intro same
  rw [atX, atY, Option.some_inj] at same
  rw [same] at nonzero
  exact nonzero BitVec.xor_self

theorem exists_difference {a b : List Symbol} (lengths : a.length = b.length) {k : Nat}
    (differs : a[k]? ≠ b[k]?) :
    ∃ s, (List.zipWith (· ^^^ ·) a b)[k]? = some s ∧ s ≠ 0 := by
  have lt : k < a.length := by
    by_contra beyond
    apply differs
    rw [List.getElem?_eq_none (by omega), List.getElem?_eq_none (by omega)]
  have atA := List.getElem?_eq_getElem lt
  have atB := List.getElem?_eq_getElem (lengths ▸ lt)
  refine ⟨_, List.getElem?_zipWith_eq_some.mpr ⟨_, _, atA, atB, rfl⟩, ?_⟩
  intro zero
  rw [atA, atB, BitVec.xor_eq_zero_iff.mp zero] at differs
  exact differs rfl

/-- A change within six consecutive symbols is detected. -/
theorem verify_of_burst {head : List Char} {a b : List Symbol} (lengths : a.length = b.length)
    (valid : verify head a = true) (changed : a ≠ b) {start : Nat}
    (inside : ∀ k, a[k]? ≠ b[k]? → start ≤ k ∧ k < start + 6) : verify head b = false := by
  rw [← Bool.not_eq_true]
  intro still
  obtain ⟨k, differs⟩ : ∃ k, a[k]? ≠ b[k]? := by
    by_contra none
    exact changed (List.ext_getElem? fun k => not_not.mp (not_exists.mp none k))
  obtain ⟨s, found, nonzero⟩ := exists_difference lengths differs
  exact syndrome_burst_ne_zero (fun k s at_ ne => inside k (getElem?_ne_of_difference at_ ne))
    ⟨s, List.mem_of_getElem? found, nonzero⟩ (syndrome_eq_zero_of_verify lengths valid still)

/-- A change of two symbols fewer than 1023 places apart is detected. -/
theorem verify_of_pair {head : List Char} {a b : List Symbol} (lengths : a.length = b.length)
    (valid : verify head a = true) {i j : Nat} (order : i < j) (near : j < i + 1023)
    (pair : ∀ k, a[k]? ≠ b[k]? ↔ k = i ∨ k = j) : verify head b = false := by
  rw [← Bool.not_eq_true]
  intro still
  obtain ⟨s, atI, nonzero⟩ := exists_difference lengths ((pair i).mpr (Or.inl rfl))
  obtain ⟨t, atJ, _⟩ := exists_difference lengths ((pair j).mpr (Or.inr rfl))
  exact syndrome_pair_ne_zero order near
    (fun k u at_ ne => (pair k).mp (getElem?_ne_of_difference at_ ne)) atI nonzero atJ
    (syndrome_eq_zero_of_verify lengths valid still)

end LightningInvoice.Checksum
