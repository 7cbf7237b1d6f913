import LightningInvoice.Proofs.Checksum.Detection

/-!
A byte of the head enters the message twice, by its upper three bits and, one place more than the
head is long further on, by its lower five. The two symbols could only hide each other if they stood
1023 places apart, so in a head of up to 1021 bytes a wrong byte is always detected.
-/
namespace LightningInvoice.Checksum

theorem setWidth_eq_zero {s : Symbol} (h : s.setWidth 30 = (0 : Remainder)) : s = 0 := by
  have lt := s.isLt
  have value := congrArg BitVec.toNat h
  rw [BitVec.toNat_setWidth, Nat.mod_eq_of_lt (by omega)] at value
  exact BitVec.eq_of_toNat_eq value

/-- Two places fewer than 1023 apart: a change there, of one symbol or of both, is never lost. -/
theorem remainder_ne_of_two {front between back : List Symbol} {a b c d : Symbol}
    (near : between.length + 1 < 1023) (changed : a ≠ c ∨ b ≠ d) :
    remainder (front ++ a :: (between ++ b :: back)) ≠
      remainder (front ++ c :: (between ++ d :: back)) := by
  intro same
  simp only [remainder, List.foldl_append, List.foldl_cons] at same
  generalize front.foldl step 1 = start at same
  have gap := foldl_step_xor_foldl_step (step start a) (step start c) between
  rw [← step_xor, BitVec.xor_self] at gap
  have behind := foldl_step_xor_foldl_step (step (between.foldl step (step start a)) b)
    (step (between.foldl step (step start c)) d) back
  rw [same, BitVec.xor_self, ← step_xor, gap] at behind
  -- No difference is left at the end, so there was none right after the second change.
  have cancelled := eq_zero_of_advance_iterate_eq_zero behind.symm
  have alone : step 0#30 (a ^^^ c) = (a ^^^ c).setWidth 30 := step_zero_left _
  rw [alone, step_eq, ← Function.iterate_succ_apply' advance] at cancelled
  have moved := BitVec.xor_eq_zero_iff.mp cancelled
  -- The first change, moved on to the place of the second, is to be that change itself.
  by_cases first : a ^^^ c = 0
  · rw [first] at moved
    have still : advance^[between.length.succ] (BitVec.setWidth 30 (0 : Symbol)) = 0 :=
      advance_iterate_zero _
    have second := setWidth_eq_zero (moved.symm.trans still)
    rcases changed with upper | lower
    · exact upper (BitVec.xor_eq_zero_iff.mp first)
    · exact lower (BitVec.xor_eq_zero_iff.mp second)
  · exact advance_iterate_ne first (Nat.succ_pos _) near _ moved

def upper (b : UInt8) : Symbol := Symbol.ofByte (b >>> 5)

theorem expand_append {head : List Char} {before after : List UInt8} {b : UInt8}
    (bytes : Utf8.encode head = before ++ b :: after) (data : List Symbol) :
    expand head ++ data = before.map upper ++ upper b ::
      ((after.map upper ++ Symbol.least :: before.map Symbol.ofByte) ++ Symbol.ofByte b ::
        (after.map Symbol.ofByte ++ data)) := by
  rw [expand, bytes]
  simp only [List.map_append, List.map_cons, List.append_assoc, List.cons_append]
  rfl

theorem eq_of_upper_eq {a b : UInt8} (high : upper a = upper b)
    (low : Symbol.ofByte a = Symbol.ofByte b) : a = b := by
  have values : ∀ c : UInt8, (Symbol.ofByte c).toNat = c.toNat % 32 ∧ (upper c).toNat = c.toNat / 32 := by
    intro c
    have lt := c.toNat_lt
    have shifted : (c >>> 5).toNat = c.toNat / 32 := by
      rw [UInt8.toNat_shiftRight, Nat.shiftRight_eq_div_pow]
      rfl
    constructor
    · exact BitVec.toNat_setWidth ..
    · show (BitVec.setWidth 5 (c >>> 5).toBitVec).toNat = _
      rw [BitVec.toNat_setWidth, UInt8.toNat_toBitVec, shifted]
      omega
  have highs := congrArg BitVec.toNat high
  have lows := congrArg BitVec.toNat low
  rw [(values a).2, (values b).2] at highs
  rw [(values a).1, (values b).1] at lows
  exact UInt8.toNat_inj.mp (by omega)

theorem exists_append_of_ne_iff {α : Type} {a b : List α} {i : Nat} (lengths : a.length = b.length)
    (single : ∀ k, a[k]? ≠ b[k]? ↔ k = i) :
    ∃ before x y after, x ≠ y ∧ a = before ++ x :: after ∧ b = before ++ y :: after := by
  have differs : a[i]? ≠ b[i]? := (single i).mpr rfl
  have inA : i < a.length := by
    by_contra beyond
    rw [List.getElem?_eq_none (by omega), List.getElem?_eq_none (by omega)] at differs
    exact differs rfl
  have inB : i < b.length := lengths ▸ inA
  rw [List.getElem?_eq_getElem inA, List.getElem?_eq_getElem inB] at differs
  refine ⟨a.take i, a[i], b[i], a.drop (i + 1), fun same => differs (congrArg some same), ?_, ?_⟩
  · rw [← List.drop_eq_getElem_cons inA, List.take_append_drop]
  · have front : a.take i = b.take i := by
      apply List.ext_getElem?
      intro k
      rw [List.getElem?_take, List.getElem?_take]
      split
      · rename_i early
        exact not_not.mp fun other => absurd ((single k).mp other) (by omega)
      · rfl
    have back : a.drop (i + 1) = b.drop (i + 1) := by
      apply List.ext_getElem?
      intro k
      rw [List.getElem?_drop, List.getElem?_drop]
      exact not_not.mp fun other => absurd ((single _).mp other) (by omega)
    rw [front, back, ← List.drop_eq_getElem_cons inB, List.take_append_drop]

theorem not_verify_of_byte {a b : List Char} {i : Nat} (short : (Utf8.encode a).length ≤ 1021)
    (lengths : (Utf8.encode a).length = (Utf8.encode b).length)
    (single : ∀ k, (Utf8.encode a)[k]? ≠ (Utf8.encode b)[k]? ↔ k = i) {data : List Symbol}
    (valid : verify a data = true) : verify b data = false := by
  obtain ⟨before, x, y, after, different, bytesA, bytesB⟩ := exists_append_of_ne_iff lengths single
  rw [← Bool.not_eq_true]
  intro still
  rw [verify, beq_iff_eq] at valid still
  rw [expand_append bytesA] at valid
  rw [expand_append bytesB] at still
  refine remainder_ne_of_two ?_ ?_ (valid.trans still.symm)
  · rw [bytesA, List.length_append, List.length_cons] at short
    rw [List.length_append, List.length_cons, List.length_map, List.length_map]
    omega
  · by_contra same
    rw [not_or, not_not, not_not] at same
    exact different (eq_of_upper_eq same.1 same.2)

end LightningInvoice.Checksum
