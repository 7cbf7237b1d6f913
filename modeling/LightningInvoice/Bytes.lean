/-! Byte strings of a fixed length: taking one out of a longer list, and cutting a list into equal
pieces. -/
namespace LightningInvoice

structure Bytes (n : Nat) where
  toList : List UInt8
  length_toList : toList.length = n
  deriving DecidableEq

namespace Bytes

theorem ext {n : Nat} {a b : Bytes n} (h : a.toList = b.toList) : a = b := by
  cases a; cases b; simp_all

def ofList? (n : Nat) (bytes : List UInt8) : Option (Bytes n) :=
  if h : bytes.length = n then some ⟨bytes, h⟩ else none

/-- The `n` bytes of a list from position `start` on. -/
def slice (bytes : List UInt8) (start n : Nat) (h : start + n ≤ bytes.length) : Bytes n :=
  ⟨(bytes.drop start).take n, by simp only [List.length_take, List.length_drop]; omega⟩

/-- Cuts a list into pieces of `n + 1` bytes, if its length is a multiple of that. -/
def pieces? (n : Nat) (bytes : List UInt8) : Option (List (Bytes (n + 1))) :=
  if bytes = [] then some []
  else if h : n + 1 ≤ bytes.length then
    (pieces? n (bytes.drop (n + 1))).map (slice bytes 0 (n + 1) (by omega) :: ·)
  else none
termination_by bytes.length
decreasing_by simp only [List.length_drop]; omega

end Bytes
end LightningInvoice
