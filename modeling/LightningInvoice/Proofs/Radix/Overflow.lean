import LightningInvoice.Proofs.Payload
import Mathlib.Algebra.BigOperators.Fin

/-!
The number that digits denote as a sum over their places, and where it leaves 64 bits. Evaluation
stops at the first product or sum that does not fit. No later digit makes a number smaller, so it
stops exactly where the whole number does not fit: never for a timestamp or the length of a field,
whatever zeros stand in front, and for a field that holds a number from `2 ^ 64` on.
-/
namespace LightningInvoice
namespace Radix

/-- The sum of the digits, each times the power of the base for its place. -/
def placeSum (base : Nat) (digits : List Nat) : Nat :=
  ∑ i : Fin digits.length, digits[i] * base ^ (digits.length - 1 - i)

theorem placeSum_cons (base d : Nat) (ds : List Nat) :
    placeSum base (d :: ds) = d * base ^ ds.length + placeSum base ds := by
  -- Places are counted from the last digit, so those behind `d` keep theirs.
  have later : ∀ i : Fin ds.length, ds.length + 1 - 1 - (i + 1) = ds.length - 1 - i := by omega
  rw [placeSum, placeSum]
  refine (Fin.sum_univ_succ _).trans (congrArg (d * base ^ ds.length + ·) ?_)
  refine Finset.sum_congr rfl fun i _ => ?_
  exact congrArg (ds[i] * base ^ ·) (later i)

theorem value_eq_placeSum (base : Nat) (ds : List UInt8) :
    value base ds = placeSum base (ds.map UInt8.toNat) := by
  induction ds with
  | nil => rfl
  | cons d rest ih => rw [value_cons, ih, List.map_cons, placeSum_cons, List.length_map]

theorem value?_zeros_append (base : UInt64) (zeros : Nat) (ds : List UInt8) :
    value? base (List.replicate zeros 0 ++ ds) = value? base ds := by
  induction zeros with
  | zero => rfl
  | succ zeros ih =>
    have product : Checked.mul? 0 base = some 0 := Checked.mul?_eq_some.mpr (Nat.zero_mul _)
    have first : (Checked.mul? 0 base).bind (Checked.add? · (0 : UInt8).toUInt64) = some 0 := by
      rw [product, Option.bind_some, Checked.add?_eq_some]
      rfl
    rw [List.replicate_succ, List.cons_append, value?, List.foldlM_cons, first]
    exact ih

end Radix

open Radix

theorem Symbol.number_eq_placeSum (symbols : List Symbol) :
    number symbols = placeSum 32 (symbols.map BitVec.toNat) := by
  have digits : symbols.map (UInt8.toNat ∘ toByte) = symbols.map BitVec.toNat :=
    List.map_congr_left fun s _ => toNat_toByte s
  rw [number, value_eq_placeSum, List.map_map, digits]

/-- The length that two symbols declare is the number that they denote. -/
theorem Frame.number_pair (upper lower : Symbol) :
    Symbol.number [upper, lower] = declared upper lower := by
  show (0 * 32 + upper.toByte.toNat) * 32 + lower.toByte.toNat = _
  rw [Symbol.toNat_toByte, Symbol.toNat_toByte, Nat.zero_mul, Nat.zero_add]
  rfl

theorem Frame.number?_pair (upper lower : Symbol) :
    Symbol.number? [upper, lower] = some (UInt64.ofNat (declared upper lower)) := by
  rw [← number_pair]
  exact Symbol.number?_of_length (by simp)

/-! ### Fields that hold a number -/

theorem Payload.number_eq_ok_iff {payload : List Symbol} {n : UInt64} :
    number payload = .ok n ↔ n.toNat = Symbol.number payload := by
  rw [eq_comm (a := n.toNat), ← Symbol.number?_eq_some_iff, number]
  cases Symbol.number? payload <;> simp [eq_comm]

namespace Tag

/-- The kinds of field that hold a number, each with the tag that keeps it. -/
inductive Numeric : FieldKind → (UInt64 → Tag) → Prop
  | expiry : Numeric .expiry .expiry
  | minFinalCltv : Numeric .minFinalCltv .minFinalCltv

namespace Numeric
variable {kind : FieldKind} {keep : UInt64 → Tag} (numeric : Numeric kind keep)
include numeric

theorem ofField_eq (upper lower : Symbol) (payload : List Symbol) :
    ofField (kind.code :: upper :: lower :: payload) = (Payload.number payload).map keep := by
  rw [ofField, ofPayload_code]
  cases numeric <;> rfl

theorem injective : Function.Injective keep := by
  intro m n same
  cases numeric <;> injection same

theorem ofField_eq_ok_iff {upper lower : Symbol} {payload : List Symbol} {n : UInt64} :
    ofField (kind.code :: upper :: lower :: payload) = .ok (keep n) ↔
      n.toNat = Symbol.number payload := by
  rw [numeric.ofField_eq, map_eq_ok_iff, ← Payload.number_eq_ok_iff]
  constructor
  · rintro ⟨m, read, same⟩
    rwa [← numeric.injective same]
  · exact fun read => ⟨n, read, rfl⟩

theorem ofField_eq_overflow_iff {upper lower : Symbol} {payload : List Symbol} :
    ofField (kind.code :: upper :: lower :: payload) = .error (.malformed .integerOverflow) ↔
      2 ^ 64 ≤ Symbol.number payload := by
  rw [numeric.ofField_eq, map_eq_error_iff, Payload.number_eq_error_iff]
  exact and_iff_left rfl

end Numeric
end Tag

namespace Radix

/-- Evaluation in 64-bit words is exact. It gives the sum of the digits over their places if that
sum is below `2 ^ 64`, and nothing otherwise, whatever zeros stand in front. So symbols for a
timestamp or for the length of a field always have a value, and a field that holds a number is
refused exactly from `2 ^ 64` on. -/
theorem evaluation_exact :
    (∀ (base : UInt64) (ds : List UInt8), 0 < base.toNat →
      (∀ n : UInt64, value? base ds = some n ↔
        placeSum base.toNat (ds.map UInt8.toNat) < 2 ^ 64 ∧
          n.toNat = placeSum base.toNat (ds.map UInt8.toNat)) ∧
      (value? base ds = none ↔ 2 ^ 64 ≤ placeSum base.toNat (ds.map UInt8.toNat))) ∧
    (∀ (base : UInt64) (zeros : Nat) (ds : List UInt8),
      value? base (List.replicate zeros 0 ++ ds) = value? base ds) ∧
    (∀ symbols : List Symbol, symbols.length = 7 ∨ symbols.length = 2 →
      Symbol.number? symbols = some (UInt64.ofNat (Symbol.number symbols)) ∧
        Symbol.number symbols = placeSum 32 (symbols.map BitVec.toNat) ∧
        Symbol.number symbols < 2 ^ 64) ∧
    (∀ upper lower : Symbol,
      Symbol.number? [upper, lower] = some (UInt64.ofNat (Frame.declared upper lower))) ∧
    ∀ (kind : FieldKind) (keep : UInt64 → Tag), Tag.Numeric kind keep →
      ∀ (upper lower : Symbol) (payload : List Symbol),
        (Tag.ofField (kind.code :: upper :: lower :: payload) =
            .error (.malformed .integerOverflow) ↔
          2 ^ 64 ≤ placeSum 32 (payload.map BitVec.toNat)) ∧
        ∀ n : UInt64, Tag.ofField (kind.code :: upper :: lower :: payload) = .ok (keep n) ↔
          n.toNat = placeSum 32 (payload.map BitVec.toNat) := by
  refine ⟨?_, value?_zeros_append, ?_, Frame.number?_pair, ?_⟩
  · intro base ds positive
    rw [← value_eq_placeSum]
    refine ⟨fun n => ?_, value?_eq_none_iff positive⟩
    rw [value?_eq_some_iff positive, eq_comm]
    exact ⟨fun same => ⟨same ▸ n.toNat_lt, same⟩, And.right⟩
  · intro symbols lengths
    have short : symbols.length ≤ 12 := by omega
    exact ⟨Symbol.number?_of_length short, Symbol.number_eq_placeSum symbols,
      Symbol.number_lt_of_length short⟩
  · intro kind keep numeric upper lower payload
    rw [← Symbol.number_eq_placeSum]
    exact ⟨numeric.ofField_eq_overflow_iff, fun n => numeric.ofField_eq_ok_iff⟩

theorem evaluation_exact_samples :
    0 < (9223372036854775808 : UInt64).toNat ∧
      value? 9223372036854775808 [1, 255] = some 9223372036854776063 ∧
      value? 9223372036854775808 [2, 0] = none ∧
      value? 9223372036854775808 [0, 0, 2, 0] = value? 9223372036854775808 [2, 0] ∧
      Symbol.number? [31, 31] = some (UInt64.ofNat (Symbol.number [31, 31])) ∧
      Tag.ofField (6 :: 0 :: 13 :: 16 :: List.replicate 12 0) =
        .error (.malformed .integerOverflow) ∧
      Tag.ofField (24 :: 0 :: 13 :: 15 :: List.replicate 12 31) =
        .ok (.minFinalCltv 18446744073709551615) := by
  obtain ⟨exactly, zeros, lengths, -, fields⟩ := evaluation_exact
  have positive : 0 < (9223372036854775808 : UInt64).toNat := by decide
  refine ⟨positive, ?_, ?_, zeros _ 2 [2, 0], (lengths [31, 31] (Or.inr rfl)).1, ?_, ?_⟩
  · exact ((exactly _ [1, 255] positive).1 _).mpr (by decide)
  · exact (exactly _ [2, 0] positive).2.mpr (by decide)
  · exact (fields _ _ .expiry 0 13 _).1.mpr (by decide)
  · exact ((fields _ _ .minFinalCltv 0 13 _).2 _).mpr (by decide)

end Radix
end LightningInvoice
