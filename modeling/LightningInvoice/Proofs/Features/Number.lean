import LightningInvoice.Payload
import LightningInvoice.Proofs.Features
import LightningInvoice.Proofs.Radix
import Mathlib.Data.List.GetD

/-!
Feature bits as the bits of a number. The symbols of a field write a number with the most
significant digit first, and feature bit `n` is bit `n` of this number, so zeros in front of the
symbols change nothing.
-/
namespace LightningInvoice.Features

theorem bitsFromEnd_concat (symbols : List Symbol) (s : Symbol) :
    bitsFromEnd (symbols ++ [s]) = (List.range 5).map s.getLsbD ++ bitsFromEnd symbols := by
  rw [bitsFromEnd, List.reverse_append]
  rfl

theorem getD_bitsFromEnd (symbols : List Symbol) (n : Nat) :
    (bitsFromEnd symbols).getD n false = (Symbol.number symbols).testBit n := by
  induction symbols using List.reverseRecOn generalizing n with
  | nil => exact (Nat.zero_testBit n).symm
  | append_singleton symbols s ih =>
    have five : ((List.range 5).map s.getLsbD).length = 5 := rfl
    have digit : s.toNat < 2 ^ 5 := s.isLt
    have number : Symbol.number (symbols ++ [s]) = 2 ^ 5 * Symbol.number symbols + s.toNat := by
      rw [Symbol.number_concat, Nat.mul_comm]
      rfl
    rw [bitsFromEnd_concat, number, Nat.testBit_two_pow_mul_add _ digit]
    split
    · rename_i low
      rw [← five] at low
      rw [List.getD_append _ _ _ _ low, List.getD_eq_getElem _ _ low, List.getElem_map,
        List.getElem_range, BitVec.testBit_toNat]
    · rename_i high
      rw [List.getD_append_right _ _ _ _ (Nat.le_of_not_lt high), five, ih]

theorem isSet_ofSymbols_eq_testBit (symbols : List Symbol) (n : Nat) :
    (ofSymbols symbols).isSet n = (Symbol.number symbols).testBit n :=
  (isSet_ofSymbols symbols n).trans (getD_bitsFromEnd symbols n)

/-- Every payload is read as features. The bits that are set are those of the number that its
symbols write, each is listed once and in ascending order, and leading zeros have no part in it. -/
theorem ofSymbols_bits (symbols : List Symbol) :
    Tag.ofKind .features symbols = .ok (.features (ofSymbols symbols)) ∧
    (∀ n, (ofSymbols symbols).isSet n = true ↔ (Symbol.number symbols).testBit n = true) ∧
    (ofSymbols symbols).setBits.Pairwise (· < ·) ∧
    (∀ n, n ∈ (ofSymbols symbols).setBits ↔ (Symbol.number symbols).testBit n = true) ∧
    ∀ zeros, ofSymbols (List.replicate zeros 0 ++ symbols) = ofSymbols symbols := by
  refine ⟨rfl, fun n => ?_, pairwise_setBits _, fun n => ?_, fun zeros => ?_⟩
  · rw [isSet_ofSymbols_eq_testBit]
  · rw [mem_setBits, isSet_ofSymbols_eq_testBit]
  · apply eq_of_isSet
    intro n
    rw [isSet_ofSymbols_eq_testBit, isSet_ofSymbols_eq_testBit, Symbol.number_replicate_append]

example : (ofSymbols [0, 1, 0, 16]).setBits = [4, 10] := by decide +kernel

end LightningInvoice.Features
