import LightningInvoice.Invoice
import Mathlib.Algebra.Group.Nat.Defs

/-!
When a request can no longer be paid. The deadline is computed in 64 bits of seconds, and the
longest span stands for every deadline that does not fit. No moment comes after the longest span, so
the answer is that of exact arithmetic.
-/
namespace LightningInvoice

theorem Checked.add?_eq_none {a b : UInt64} : add? a b = none ↔ 2 ^ 64 ≤ a.toNat + b.toNat := by
  unfold add?
  split
  · rename_i fits
    exact iff_of_false nofun (Nat.not_le.mpr fits)
  · rename_i beyond
    exact iff_of_true rfl (Nat.le_of_not_lt beyond)

namespace Duration

def inNanoseconds (d : Duration) : Nat := d.seconds.toNat * 1000000000 + d.nanoseconds.val

theorem inNanoseconds_ofSeconds (seconds : UInt64) :
    (ofSeconds seconds).inNanoseconds = seconds.toNat * 1000000000 :=
  Nat.add_zero _

theorem inNanoseconds_longest :
    longest.inNanoseconds = 18446744073709551615 * 1000000000 + 999999999 := rfl

theorem inNanoseconds_le_longest (d : Duration) : d.inNanoseconds ≤ longest.inNanoseconds := by
  have seconds := d.seconds.toNat_lt
  have nanoseconds := d.nanoseconds.isLt
  rw [inNanoseconds_longest, inNanoseconds]
  omega

/-- Spans compare as their nanoseconds do, since the nanoseconds stay below a second. -/
theorem shorter_iff {a b : Duration} :
    a.shorter b = true ↔ a.inNanoseconds < b.inNanoseconds := by
  have belowA := a.nanoseconds.isLt
  have belowB := b.nanoseconds.isLt
  simp only [shorter, inNanoseconds, Bool.or_eq_true, Bool.and_eq_true, decide_eq_true_eq,
    beq_iff_eq, UInt64.lt_iff_toNat_lt, Fin.lt_def, ← UInt64.toNat_inj]
  omega

end Duration

namespace Invoice

/-- For how many seconds a request with these fields can be paid: as many as the first field that
says so, or an hour. -/
def lifetime : List Tag → Nat
  | [] => 3600
  | .expiry seconds :: _ => seconds.toNat
  | _ :: rest => lifetime rest

theorem lifetime_eq (tags : List Tag) :
    lifetime tags = ((tags.findSome? Tag.expiry?).getD defaultExpiry).toNat := by
  fun_induction lifetime tags with
  | case1 => rfl
  | case2 => rfl
  | case3 t rest other ih =>
    have none : t.expiry? = none := by
      cases t with
      | expiry seconds => exact absurd rfl (other seconds)
      | _ => rfl
    rw [ih, List.findSome?_cons, none]

variable (inv : Invoice)

theorem toNat_expiry : inv.expiry.toNat = lifetime inv.tags := (lifetime_eq inv.tags).symm

theorem deadline_cases :
    inv.deadline.inNanoseconds = (inv.timestamp.toNat + lifetime inv.tags) * 1000000000 ∨
      2 ^ 64 ≤ inv.timestamp.toNat + lifetime inv.tags ∧ inv.deadline = .longest := by
  rw [← toNat_expiry]
  unfold deadline
  cases sum : Checked.add? inv.timestamp inv.expiry with
  | some seconds =>
    left
    rw [Checked.add?_eq_some.mp sum]
    exact Duration.inNanoseconds_ofSeconds seconds
  | none =>
    right
    exact ⟨Checked.add?_eq_none.mp sum, rfl⟩

theorem wouldExpire_iff {moment : Duration} :
    inv.wouldExpire moment = true ↔
      (inv.timestamp.toNat + lifetime inv.tags) * 1000000000 < moment.inNanoseconds := by
  rw [wouldExpire, Duration.shorter_iff]
  rcases inv.deadline_cases with fits | ⟨beyond, longest⟩
  · rw [fits]
  · -- Both sides are false: no moment comes after the longest span, nor after such a sum.
    have bound := moment.inNanoseconds_le_longest
    rw [longest]
    rw [Duration.inNanoseconds_longest] at bound ⊢
    omega

/-- A request can no longer be paid at the moments after the sum of its time and its lifetime, in
exact arithmetic. What cannot be paid at a moment cannot be paid later, and a sum that does not fit
in 64 bits of seconds is never passed. -/
theorem wouldExpire_exact :
    (∀ moment, inv.wouldExpire moment = true ↔
      (inv.timestamp.toNat + lifetime inv.tags) * 1000000000 < moment.inNanoseconds) ∧
    (∀ moment later : Duration, moment.inNanoseconds ≤ later.inNanoseconds →
      inv.wouldExpire moment = true → inv.wouldExpire later = true) ∧
    (2 ^ 64 ≤ inv.timestamp.toNat + lifetime inv.tags →
      ∀ moment, inv.wouldExpire moment = false) := by
  refine ⟨fun moment => inv.wouldExpire_iff, ?_, ?_⟩
  · intro moment later order expired
    rw [wouldExpire_iff] at expired ⊢
    exact Nat.lt_of_lt_of_le expired order
  · intro beyond moment
    have bound := moment.inNanoseconds_le_longest
    rw [Duration.inNanoseconds_longest] at bound
    rw [← Bool.not_eq_true, wouldExpire_iff]
    omega

/-- An invoice of which only the time and the fields matter. -/
def stub (timestamp : UInt64) (tags : List Tag) : Invoice where
  human := ⟨.bitcoin, .unspecified⟩
  timestamp := timestamp
  tags := tags
  signature := ⟨.ofNumber 32 0, .ofNumber 32 0, 0⟩
  signingData := []
  checksum := ""

/-- A deadline in the last second that fits, and one a second later. Only the first of two fields on
the lifetime counts. -/
theorem wouldExpire_exact_sample :
    (stub 18446744073709551555 [.expiry 60, .expiry 0]).wouldExpire
        ⟨18446744073709551615, 0⟩ = false ∧
      (stub 18446744073709551555 [.expiry 60, .expiry 0]).wouldExpire
        ⟨18446744073709551615, 1⟩ = true ∧
      (stub 18446744073709551555 [.expiry 60, .expiry 0]).wouldExpire .longest = true ∧
      2 ^ 64 ≤ 18446744073709551556 + lifetime [.expiry 60, .expiry 0] ∧
      (stub 18446744073709551556 [.expiry 60, .expiry 0]).wouldExpire .longest = false := by
  obtain ⟨exact, monotone, _⟩ := wouldExpire_exact (stub 18446744073709551555 [.expiry 60, .expiry 0])
  obtain ⟨_, _, never⟩ := wouldExpire_exact (stub 18446744073709551556 [.expiry 60, .expiry 0])
  have passed := (exact ⟨18446744073709551615, 1⟩).mpr (by decide)
  refine ⟨?_, passed, monotone _ _ (by decide) passed, by decide, never (by decide) _⟩
  rw [← Bool.not_eq_true, exact]
  decide

end Invoice
end LightningInvoice
