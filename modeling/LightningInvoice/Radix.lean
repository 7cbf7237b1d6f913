import LightningInvoice.Checked
import LightningInvoice.Symbol
import LightningInvoice.Bytes

/-! Numbers written most significant digit first, in symbols or in bytes. `value` is the number
itself; `value?` computes it in 64-bit words and stops at the first product or sum that does not
fit. -/
namespace LightningInvoice
namespace Radix

def value (base : Nat) (digits : List UInt8) : Nat :=
  digits.foldl (fun n d => n * base + d.toNat) 0

/-- The number that `digits` denote in `base`, if every product and sum on the way fits in 64
bits. -/
def value? (base : UInt64) (digits : List UInt8) : Option UInt64 :=
  digits.foldlM (fun n d => (Checked.mul? n base).bind (Checked.add? · d.toUInt64)) 0

/-- The low `width` digits of `n` in `base`, most significant first. -/
def digits (base : Nat) : Nat → Nat → List Nat
  | 0, _ => []
  | width + 1, n => digits base width (n / base) ++ [n % base]

theorem length_digits (base width n : Nat) : (digits base width n).length = width := by
  induction width generalizing n with
  | zero => rfl
  | succ width ih => rw [digits, List.length_append, ih, List.length_singleton]

end Radix

namespace Symbol

def number (symbols : List Symbol) : Nat := Radix.value 32 (symbols.map toByte)

def number? (symbols : List Symbol) : Option UInt64 := Radix.value? 32 (symbols.map toByte)

/-- The low `width` base-32 digits of `n`, most significant first. -/
def ofNumber (width n : Nat) : List Symbol := (Radix.digits 32 width n).map (BitVec.ofNat 5)

end Symbol

namespace Bytes

def number {n : Nat} (bytes : Bytes n) : Nat := Radix.value 256 bytes.toList

/-- The low `n` bytes of a number, most significant first. -/
def ofNumber (n v : Nat) : Bytes n :=
  ⟨(Radix.digits 256 n v).map UInt8.ofNat, by rw [List.length_map, Radix.length_digits]⟩

end Bytes
end LightningInvoice
