import LightningInvoice.Radix

/-!
Points of the curve `y² = x³ + 7` over the integers modulo a prime. A compressed key gives `x` and
whether `y` is odd; the prime is 3 modulo 4, so a square has its root at a fixed power.
-/
namespace LightningInvoice.Secp256k1

/-- The prime of the field, 977 and 2³² below 2²⁵⁶. -/
def prime : Nat := 0xfffffffffffffffffffffffffffffffffffffffffffffffffffffffefffffc2f

structure Point where
  x : Nat
  y : Nat
  deriving DecidableEq

/-- `base ^ exponent` modulo the prime, by repeated squaring. -/
def power (base exponent : Nat) : Nat :=
  if exponent = 0 then 1
  else
    let half := power (base * base % prime) (exponent / 2)
    if exponent % 2 = 1 then base * half % prime else half
termination_by exponent
decreasing_by omega

/-- The square root that the field has, if it has one. -/
def root? (v : Nat) : Option Nat :=
  let y := power v ((prime + 1) / 4)
  if y * y % prime = v then some y else none

/-- The point with a given `x` whose `y` is odd or even as asked. -/
def lift? (x : Nat) (odd : Bool) : Option Point :=
  if x < prime then
    (root? ((x * x * x + 7) % prime)).map fun y =>
      ⟨x, if (y % 2 == 1) == odd then y else prime - y⟩
  else none

/-- Reads a compressed key: 2 or 3 for an even or an odd `y`, then `x`. -/
def ofCompressed? (key : Bytes 33) : Option Point :=
  match key.toList with
  | tag :: x =>
    if tag = 2 then lift? (Radix.value 256 x) false
    else if tag = 3 then lift? (Radix.value 256 x) true
    else none
  | [] => none

/-- A point as a tag for the parity of `y`, and `x`. -/
def Point.compressed (p : Point) : List UInt8 :=
  (if p.y % 2 = 1 then 3 else 2) :: (Bytes.ofNumber 32 p.x).toList

/-- A point as a tag for both coordinates, `x`, and `y`. -/
def Point.uncompressed (p : Point) : List UInt8 :=
  4 :: (Bytes.ofNumber 32 p.x).toList ++ (Bytes.ofNumber 32 p.y).toList

def refusal : String := "malformed public key"

end LightningInvoice.Secp256k1
