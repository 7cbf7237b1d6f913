/-! Arithmetic on 64-bit words that gives no value where the exact result does not fit. -/
namespace LightningInvoice.Checked

/-- The sum, if it fits in 64 bits. -/
def add? (a b : UInt64) : Option UInt64 :=
  if a.toNat + b.toNat < UInt64.size then some (a + b) else none

/-- The product, if it fits in 64 bits. -/
def mul? (a b : UInt64) : Option UInt64 :=
  if a.toNat * b.toNat < UInt64.size then some (a * b) else none

theorem add?_eq_some {a b c : UInt64} :
    add? a b = some c ↔ a.toNat + b.toNat = c.toNat := by
  have hc := c.toNat_lt_size
  unfold add?
  split
  · rename_i h
    rw [Option.some_inj, ← UInt64.toNat_inj, UInt64.toNat_add, Nat.mod_eq_of_lt h]
  · simp only [reduceCtorEq, false_iff]; omega

theorem mul?_eq_some {a b c : UInt64} :
    mul? a b = some c ↔ a.toNat * b.toNat = c.toNat := by
  have hc := c.toNat_lt_size
  unfold mul?
  split
  · rename_i h
    rw [Option.some_inj, ← UInt64.toNat_inj, UInt64.toNat_mul, Nat.mod_eq_of_lt h]
  · simp only [reduceCtorEq, false_iff]; omega

end LightningInvoice.Checked
