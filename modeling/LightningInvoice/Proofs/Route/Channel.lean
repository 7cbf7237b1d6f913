import LightningInvoice.Proofs.Amount
import LightningInvoice.Proofs.Json
import LightningInvoice.Route
import Mathlib.Data.List.Basic

/-!
The text of a channel number. The number falls into 24 bits for the block, 24 for the transaction and
16 for the output, and the text holds a numeral for each of them. A numeral ends where its digits
end, so the text can be cut in one way only, and no two channels have one text.
-/
namespace LightningInvoice

theorem head?_toDigits_ne {n : Nat} (positive : 0 < n) :
    (Nat.toDigits 10 n).head? ≠ some '0' := by
  induction n using Nat.strongRecOn with
  | ind n ih =>
    rw [Nat.toDigits_eq_if (by decide)]
    split
    · rw [List.head?_cons, ne_eq, Option.some.injEq, Nat.digitChar_eq_zero]
      omega
    · rw [List.head?_append_of_ne_nil _ Nat.toDigits_ne_nil]
      exact ih (n / 10) (by omega) (by omega)

theorem Amount.numeral_toDigits (n : Nat) : Numeral (Nat.toDigits 10 n) := by
  rcases Nat.eq_zero_or_pos n with rfl | positive
  · exact Or.inl rfl
  · refine Or.inr ⟨Nat.toDigits_ne_nil, fun c member => ?_, head?_toDigits_ne positive⟩
    exact Nat.isDigit_of_mem_toDigits (by decide) (by decide) member

/-! ### The parts of a channel number -/

namespace Channel
variable (channel : UInt64)

theorem toNat_block : (channel >>> 40).toNat = channel.toNat / 2 ^ 40 := by
  rw [UInt64.toNat_shiftRight, Nat.shiftRight_eq_div_pow]
  rfl

theorem toNat_transaction :
    (channel >>> 16 &&& 0xffffff).toNat = channel.toNat / 2 ^ 16 % 2 ^ 24 := by
  rw [UInt64.toNat_and, UInt64.toNat_shiftRight, Nat.shiftRight_eq_div_pow]
  exact Nat.and_two_pow_sub_one_eq_mod _ 24

theorem toNat_output : (channel &&& 0xffff).toNat = channel.toNat % 2 ^ 16 := by
  rw [UInt64.toNat_and]
  exact Nat.and_two_pow_sub_one_eq_mod _ 16

theorem toNat_eq_parts : channel.toNat =
    (channel >>> 40).toNat * 2 ^ 40 + (channel >>> 16 &&& 0xffffff).toNat * 2 ^ 16 +
      (channel &&& 0xffff).toNat := by
  rw [toNat_block, toNat_transaction, toNat_output]
  omega

theorem parts_lt : (channel >>> 40).toNat < 2 ^ 24 ∧
    (channel >>> 16 &&& 0xffffff).toNat < 2 ^ 24 ∧ (channel &&& 0xffff).toNat < 2 ^ 16 := by
  have word := channel.toNat_lt
  rw [toNat_block, toNat_transaction, toNat_output]
  omega

/-! ### The text -/

/-- The number that the digits of a numeral denote. -/
def value (numeral : List Char) : Nat := Nat.ofDigitChars 10 numeral 0

theorem parts_of_channelText_eq {a b : UInt64} (h : channelText a = channelText b) :
    (a >>> 40).toNat = (b >>> 40).toNat ∧
      (a >>> 16 &&& 0xffffff).toNat = (b >>> 16 &&& 0xffffff).toNat ∧
      (a &&& 0xffff).toNat = (b &&& 0xffff).toNat := by
  -- The separator is no digit, so equal texts have equal numerals before it and equal rests.
  have separated (rest : List Char) : Json.Ends ('x' :: rest) := Json.ends_cons rfl rest
  unfold channelText at h
  rw [List.append_assoc, List.append_assoc] at h
  obtain ⟨block, h⟩ := Json.toDigits_append_inj (separated _) (separated _) h
  obtain ⟨transaction, h⟩ :=
    Json.toDigits_append_inj (separated _) (separated _) (List.cons.inj h).2
  exact ⟨block, transaction, Json.toDigits_inj (List.cons.inj h).2⟩

theorem channelText_inj {a b : UInt64} : channelText a = channelText b ↔ a = b := by
  constructor
  · intro h
    obtain ⟨block, transaction, output⟩ := parts_of_channelText_eq h
    apply UInt64.toNat_inj.mp
    rw [toNat_eq_parts a, toNat_eq_parts b, block, transaction, output]
  · rintro rfl
    rfl

/-- The text of a channel number is three numerals with an `x` between them, for numbers of at most
24, 24 and 16 bits that make up the channel number one behind the other; and channels with equal
texts are equal. -/
theorem channelText_parts :
    (∀ channel : UInt64, ∃ block transaction output : List Char,
      channelText channel = block ++ 'x' :: transaction ++ 'x' :: output ∧
        (Amount.Numeral block ∧ Amount.Numeral transaction ∧ Amount.Numeral output) ∧
        value block < 2 ^ 24 ∧ value transaction < 2 ^ 24 ∧ value output < 2 ^ 16 ∧
        channel.toNat = value block * 2 ^ 40 + value transaction * 2 ^ 16 + value output) ∧
    ∀ a b : Hop, channelText a.channel = channelText b.channel ↔ a.channel = b.channel := by
  refine ⟨fun channel => ?_, fun a b => channelText_inj⟩
  obtain ⟨block, transaction, output⟩ := parts_lt channel
  have sum := toNat_eq_parts channel
  refine ⟨Nat.toDigits 10 (channel >>> 40).toNat,
    Nat.toDigits 10 (channel >>> 16 &&& 0xffffff).toNat, Nat.toDigits 10 (channel &&& 0xffff).toNat,
    rfl, ⟨Amount.numeral_toDigits _, Amount.numeral_toDigits _, Amount.numeral_toDigits _⟩, ?_⟩
  simp only [value, Nat.ofDigitChars_ten_toDigits]
  exact ⟨block, transaction, output, sum⟩

example : channelText 0x08fe4e000cf00001 =
    ['5', '8', '9', '3', '9', '0', 'x', '3', '3', '1', '2', 'x', '1'] := by decide +kernel

end Channel
end LightningInvoice
