import LightningInvoice.Radix
import Mathlib.Algebra.Group.Nat.Defs
import Mathlib.Data.List.Induction
import Mathlib.Data.Nat.Digits.Defs

/-!
Numbers and their digits determine each other: `n` digits of a number below `base ^ n` are read
back as that number, and a list of digits is the list of the digits of its value.
-/
namespace LightningInvoice

/-- What is no larger than a word fits in a word. -/
theorem toNat_ofNat_of_le {v : Nat} {n : UInt64} (h : v ≤ n.toNat) : (UInt64.ofNat v).toNat = v :=
  UInt64.toNat_ofNat_of_lt' (Nat.lt_of_le_of_lt h n.toNat_lt)

namespace Radix

theorem value_concat (base : Nat) (ds : List UInt8) (d : UInt8) :
    value base (ds ++ [d]) = value base ds * base + d.toNat := by
  rw [value, List.foldl_append]
  rfl

theorem value_eq_ofDigits (base : Nat) (ds : List UInt8) :
    value base ds = Nat.ofDigits base (ds.map UInt8.toNat).reverse := by
  induction ds using List.reverseRecOn with
  | nil => rfl
  | append_singleton ds d ih =>
    rw [value_concat, ih, List.map_append, List.reverse_append, List.map_singleton,
      List.reverse_singleton, List.singleton_append, Nat.ofDigits_cons, Nat.mul_comm, Nat.add_comm]

theorem value_lt {base : Nat} {ds : List UInt8} (small : ∀ d ∈ ds, d.toNat < base) :
    value base ds < base ^ ds.length := by
  induction ds using List.reverseRecOn with
  | nil => exact Nat.one_pos
  | append_singleton ds d ih =>
    have digit : d.toNat < base := small d (by simp)
    have before : value base ds + 1 ≤ base ^ ds.length :=
      ih fun e he => small e (List.mem_append_left _ he)
    rw [value_concat, List.length_append, List.length_singleton, Nat.pow_succ]
    calc value base ds * base + d.toNat
        < value base ds * base + base := Nat.add_lt_add_left digit _
      _ = (value base ds + 1) * base := (Nat.succ_mul _ _).symm
      _ ≤ base ^ ds.length * base := Nat.mul_le_mul_right _ before

theorem value_cons (base : Nat) (d : UInt8) (ds : List UInt8) :
    value base (d :: ds) = d.toNat * base ^ ds.length + value base ds := by
  induction ds using List.reverseRecOn with
  | nil => simp [value]
  | append_singleton ds e ih =>
    rw [← List.cons_append, value_concat, ih, value_concat, List.length_append,
      List.length_singleton, Nat.pow_succ, Nat.add_mul, Nat.mul_assoc, Nat.add_assoc]

theorem pow_le_value {base : Nat} {d : UInt8} (nonzero : d ≠ 0) (ds : List UInt8) :
    base ^ ds.length ≤ value base (d :: ds) := by
  have positive : 0 < d.toNat :=
    Nat.pos_of_ne_zero fun zero => nonzero (UInt8.toNat_inj.mp zero)
  rw [value_cons]
  exact Nat.le_add_right_of_le (Nat.le_mul_of_pos_left _ positive)

theorem digits_value {base : Nat} {ds : List UInt8} (small : ∀ d ∈ ds, d.toNat < base) :
    digits base ds.length (value base ds) = ds.map UInt8.toNat := by
  induction ds using List.reverseRecOn with
  | nil => rfl
  | append_singleton ds d ih =>
    have digit : d.toNat < base := small d (by simp)
    have positive : 0 < base := by omega
    rw [List.length_append, List.length_singleton, digits, value_concat,
      Nat.add_comm, Nat.add_mul_div_right _ _ positive, Nat.div_eq_of_lt digit, Nat.zero_add,
      Nat.add_mul_mod_self_right, Nat.mod_eq_of_lt digit,
      ih fun e he => small e (List.mem_append_left _ he), List.map_append]
    rfl

theorem digits_lt {base width n d : Nat} (positive : 0 < base) (h : d ∈ digits base width n) :
    d < base := by
  induction width generalizing n with
  | zero => exact absurd h List.not_mem_nil
  | succ width ih =>
    rw [digits, List.mem_append] at h
    rcases h with upper | last
    · exact ih upper
    · rw [List.mem_singleton.mp last]
      exact Nat.mod_lt _ positive

theorem value_digits {base : Nat} (positive : 0 < base) (byte : base ≤ 256) (width n : Nat) :
    value base ((digits base width n).map UInt8.ofNat) = n % base ^ width := by
  induction width generalizing n with
  | zero => exact (Nat.mod_one n).symm
  | succ width ih =>
    have last : (UInt8.ofNat (n % base)).toNat = n % base :=
      UInt8.toNat_ofNat_of_lt' (Nat.lt_of_lt_of_le (Nat.mod_lt _ positive) byte)
    rw [digits, List.map_append, List.map_singleton, value_concat, ih, last, Nat.pow_succ,
      Nat.mul_comm (base ^ width), Nat.mod_mul, Nat.mul_comm base, Nat.add_comm]

theorem value?_concat (base : UInt64) (ds : List UInt8) (d : UInt8) :
    value? base (ds ++ [d]) =
      (value? base ds).bind fun n => (Checked.mul? n base).bind (Checked.add? · d.toUInt64) := by
  rw [value?, List.foldlM_append]
  simp only [List.foldlM_cons, List.foldlM_nil, bind_pure]
  rfl

/-- Checked evaluation gives the number that the digits denote, if that fits in 64 bits. -/
theorem value?_eq_some_iff {base : UInt64} (positive : 0 < base.toNat) {ds : List UInt8}
    {n : UInt64} : value? base ds = some n ↔ value base.toNat ds = n.toNat := by
  induction ds using List.reverseRecOn generalizing n with
  | nil => simp [value?, value, ← UInt64.toNat_inj]
  | append_singleton ds d ih =>
    rw [value?_concat, value_concat]
    constructor
    · intro h
      obtain ⟨m, before, h⟩ := Option.bind_eq_some_iff.mp h
      obtain ⟨p, product, sum⟩ := Option.bind_eq_some_iff.mp h
      rw [Checked.mul?_eq_some] at product
      rw [Checked.add?_eq_some] at sum
      rw [ih.mp before, product, ← sum]
      rfl
    · intro h
      have small : value base.toNat ds ≤ value base.toNat ds * base.toNat :=
        Nat.le_mul_of_pos_right _ positive
      have before : (UInt64.ofNat (value base.toNat ds)).toNat = value base.toNat ds :=
        toNat_ofNat_of_le (n := n) (by omega)
      have product : (UInt64.ofNat (value base.toNat ds * base.toNat)).toNat =
          value base.toNat ds * base.toNat := toNat_ofNat_of_le (n := n) (by omega)
      have times : Checked.mul? (UInt64.ofNat (value base.toNat ds)) base =
          some (UInt64.ofNat (value base.toNat ds * base.toNat)) := by
        rw [Checked.mul?_eq_some, before, product]
      rw [ih.mpr before.symm, Option.bind_some, times, Option.bind_some, Checked.add?_eq_some,
        product]
      exact h

theorem value?_eq_none_iff {base : UInt64} (positive : 0 < base.toNat) {ds : List UInt8} :
    value? base ds = none ↔ 2 ^ 64 ≤ value base.toNat ds := by
  rw [← not_iff_not, Nat.not_le, ← Ne, Option.ne_none_iff_exists']
  simp only [value?_eq_some_iff positive]
  constructor
  · rintro ⟨n, same⟩
    rw [same]
    exact n.toNat_lt
  · exact fun fits => ⟨UInt64.ofNat _, (UInt64.toNat_ofNat_of_lt' fits).symm⟩

end Radix

namespace Symbol

theorem toNat_toByte (s : Symbol) : s.toByte.toNat = s.toNat := by
  have lt := s.isLt
  show (s.setWidth 8).toNat = s.toNat
  rw [BitVec.toNat_setWidth]
  exact Nat.mod_eq_of_lt (by omega)

theorem toByte_ofByte {b : UInt8} (small : b.toNat < 32) : (ofByte b).toByte = b := by
  apply UInt8.toNat_inj.mp
  rw [toNat_toByte, ofByte, BitVec.toNat_setWidth]
  exact Nat.mod_eq_of_lt small

theorem toByte_lt {symbols : List Symbol} {d : UInt8} (h : d ∈ symbols.map toByte) :
    d.toNat < 32 := by
  obtain ⟨s, _, rfl⟩ := List.mem_map.mp h
  rw [toNat_toByte]
  exact s.isLt

theorem number_concat (symbols : List Symbol) (s : Symbol) :
    number (symbols ++ [s]) = number symbols * 32 + s.toNat := by
  rw [number, List.map_append, List.map_singleton, Radix.value_concat, toNat_toByte, number]

theorem number_eq_ofDigits (symbols : List Symbol) :
    number symbols = Nat.ofDigits 32 (symbols.map BitVec.toNat).reverse := by
  have digits : symbols.map (UInt8.toNat ∘ toByte) = symbols.map BitVec.toNat :=
    List.map_congr_left fun s _ => toNat_toByte s
  rw [number, Radix.value_eq_ofDigits, List.map_map, digits]

theorem number_replicate_append (zeros : Nat) (symbols : List Symbol) :
    number (List.replicate zeros 0 ++ symbols) = number symbols := by
  have zero : (List.replicate zeros (0 : Symbol)).map BitVec.toNat = List.replicate zeros 0 :=
    List.map_replicate
  rw [number_eq_ofDigits, number_eq_ofDigits, List.map_append, List.reverse_append, zero,
    List.reverse_replicate, Nat.ofDigits_append_replicate_zero]

/-- A number in base 32, most significant digit first, behind any number of zeros. -/
def numeral (zeros n : Nat) : List Symbol :=
  List.replicate zeros 0 ++ (Nat.digits 32 n).reverse.map (BitVec.ofNat 5)

theorem number_numeral (zeros n : Nat) : number (numeral zeros n) = n := by
  have back : (Nat.digits 32 n).map (BitVec.toNat ∘ BitVec.ofNat 5) = Nat.digits 32 n := by
    refine (List.map_congr_left fun d member => ?_).trans (List.map_id _)
    exact Nat.mod_eq_of_lt (Nat.digits_lt_base (by decide) member)
  rw [numeral, number_replicate_append, number_eq_ofDigits, List.map_map, ← List.map_reverse,
    List.reverse_reverse, back, Nat.ofDigits_digits]

theorem number_lt (symbols : List Symbol) : number symbols < 32 ^ symbols.length := by
  have small : ∀ d ∈ symbols.map toByte, d.toNat < 32 := fun _ h => toByte_lt h
  have bound := Radix.value_lt small
  rwa [List.length_map] at bound

theorem number?_eq_some_iff {symbols : List Symbol} {n : UInt64} :
    number? symbols = some n ↔ number symbols = n.toNat :=
  Radix.value?_eq_some_iff (by decide)

theorem number?_eq_none_iff {symbols : List Symbol} :
    number? symbols = none ↔ 2 ^ 64 ≤ number symbols :=
  Radix.value?_eq_none_iff (by decide)

/-- A number of at most twelve symbols fits in 64 bits. -/
theorem number_lt_of_length {symbols : List Symbol} (short : symbols.length ≤ 12) :
    number symbols < 2 ^ 64 :=
  calc number symbols < 32 ^ symbols.length := number_lt symbols
    _ ≤ 32 ^ 12 := Nat.pow_le_pow_right (by decide) short
    _ < 2 ^ 64 := by decide

theorem number?_of_length {symbols : List Symbol} (short : symbols.length ≤ 12) :
    number? symbols = some (UInt64.ofNat (number symbols)) :=
  number?_eq_some_iff.mpr (UInt64.toNat_ofNat_of_lt' (number_lt_of_length short)).symm

theorem length_ofNumber (width n : Nat) : (ofNumber width n).length = width := by
  rw [ofNumber, List.length_map, Radix.length_digits]

theorem ofNumber_number (symbols : List Symbol) :
    ofNumber symbols.length (number symbols) = symbols := by
  have small : ∀ d ∈ symbols.map toByte, d.toNat < 32 := fun _ h => toByte_lt h
  have ds := Radix.digits_value small
  rw [List.length_map] at ds
  rw [ofNumber, number, ds, List.map_map, List.map_map]
  have back : ∀ s : Symbol, BitVec.ofNat 5 s.toByte.toNat = s := by
    intro s
    rw [toNat_toByte, BitVec.ofNat_toNat, BitVec.setWidth_eq]
  exact List.map_id'' back symbols

theorem number_ofNumber (width n : Nat) : number (ofNumber width n) = n % 32 ^ width := by
  rw [number, ofNumber, List.map_map, ← Radix.value_digits (by decide) (by decide)]
  congr 1
  apply List.map_congr_left
  intro d hd
  have lt := Radix.digits_lt (by decide) hd
  apply UInt8.toNat_inj.mp
  rw [Function.comp_apply, toNat_toByte, BitVec.toNat_ofNat, Nat.mod_eq_of_lt lt,
    UInt8.toNat_ofNat_of_lt' (Nat.lt_trans lt (by decide))]

theorem number_injective {a b : List Symbol} (lengths : a.length = b.length)
    (h : number a = number b) : a = b := by
  rw [← ofNumber_number a, ← ofNumber_number b, lengths, h]

end Symbol

namespace Bytes
variable {n : Nat}

theorem number_ofNumber (n v : Nat) : (ofNumber n v).number = v % 256 ^ n :=
  Radix.value_digits (by decide) (by decide) n v

theorem number_lt (b : Bytes n) : b.number < 256 ^ n := by
  have small : ∀ d ∈ b.toList, d.toNat < 256 := fun d _ => d.toNat_lt
  have bound := Radix.value_lt small
  rwa [b.length_toList] at bound

theorem ofNumber_number (b : Bytes n) : ofNumber n b.number = b := by
  have small : ∀ d ∈ b.toList, d.toNat < 256 := fun d _ => d.toNat_lt
  have ds := Radix.digits_value small
  rw [b.length_toList] at ds
  apply Bytes.ext
  show (Radix.digits 256 n (Radix.value 256 b.toList)).map UInt8.ofNat = b.toList
  rw [ds, List.map_map]
  exact List.map_id'' (fun _ => UInt8.ofNat_toNat) b.toList

theorem eq_of_ofNumber_eq {v w : Nat} (fits : v < 256 ^ n) (alsoFits : w < 256 ^ n)
    (h : ofNumber n v = ofNumber n w) : v = w := by
  have numbers := congrArg number h
  rwa [number_ofNumber, number_ofNumber, Nat.mod_eq_of_lt fits, Nat.mod_eq_of_lt alsoFits]
    at numbers

end Bytes

end LightningInvoice
