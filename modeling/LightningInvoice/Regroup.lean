import LightningInvoice.Checked
import LightningInvoice.Symbol

/-!
Regrouping between bytes and five-bit symbols, most significant bit first. A packer absorbs
symbols and gives out bytes, an unpacker the other way round, and both hold the bits that are
under way. `pack` and `unpack` run them over a whole list; `length_pack` counts the bytes, and
`sizeHint?` bounds them beforehand in 64-bit words.
-/
namespace LightningInvoice

/-- What happens at the end to bits that do not fill a byte. -/
inductive Leftover where
  | dropped
  | padded
  deriving DecidableEq

/-- Bounds on a number of items to come, the upper one if there is any. -/
structure SizeHint where
  lower : UInt64
  upper : Option UInt64
  deriving DecidableEq

def SizeHint.exactly (n : Nat) : SizeHint := ⟨UInt64.ofNat n, some (UInt64.ofNat n)⟩

/-- Bits on their way from symbols into bytes. -/
structure Packer where
  /-- How many bits are held, at most seven. -/
  count : Nat
  /-- The held bits, at the top of the byte. -/
  held : BitVec 8
  deriving DecidableEq

namespace Packer

def idle : Packer := ⟨0, 0⟩

def absorb (p : Packer) (s : Symbol) : Option UInt8 × Packer :=
  if 3 ≤ p.count then
    (some ⟨p.held ||| s.setWidth 8 >>> (p.count - 3)⟩,
      ⟨p.count - 3, s.setWidth 8 <<< (11 - p.count)⟩)
  else (none, ⟨p.count + 5, p.held ||| s.setWidth 8 <<< (3 - p.count)⟩)

theorem count_absorb {p : Packer} (bounded : p.count < 8) (s : Symbol) :
    (absorb p s).2.count = (p.count + 5) % 8 := by
  unfold absorb
  split <;> dsimp only <;> omega

/-- What a packer gives out when its source has no symbol. With padding it is the byte of the held
bits; they stay in `held` while the count drops to zero, so a later symbol is merged into them. -/
def flush (leftover : Leftover) (p : Packer) : Option UInt8 × Packer :=
  if leftover = .padded ∧ 0 < p.count then (some ⟨p.held⟩, ⟨0, p.held⟩) else (none, p)

/-- Asks for one byte. The source answers each call with the next entry of `script`, where `none`
is a pause, and pauses for ever after the last entry. -/
def next (leftover : Leftover) (p : Packer) :
    List (Option Symbol) → Option UInt8 × Packer × List (Option Symbol)
  | [] => ((flush leftover p).1, (flush leftover p).2, [])
  | none :: rest => ((flush leftover p).1, (flush leftover p).2, rest)
  | some s :: rest =>
    match absorb p s with
    | (some b, after) => (some b, after, rest)
    | (none, after) => next leftover after rest

/-- The number of bytes that a packer will give out for `n` more symbols. -/
def expected (leftover : Leftover) (p : Packer) (n : Nat) : Nat :=
  match leftover with
  | .dropped => (p.count + n * 5) / 8
  | .padded => (p.count + n * 5 + 7) / 8

/-- `expected` in 64-bit words, if each product and sum on the way fits. -/
def expected? (leftover : Leftover) (p : Packer) (n : UInt64) : Option UInt64 := do
  let bits ← Checked.add? (UInt64.ofNat p.count) (← Checked.mul? n 5)
  match leftover with
  | .dropped => return bits / 8
  | .padded => return (← Checked.add? bits 7) / 8

/-- The bounds on the bytes to come, from those on the symbols to come. -/
def sizeHint? (leftover : Leftover) (p : Packer) (source : SizeHint) : Option SizeHint := do
  let lower ← expected? leftover p source.lower
  match source.upper with
  | none => return ⟨lower, none⟩
  | some most => return ⟨lower, some (← expected? leftover p most)⟩

def available (script : List (Option Symbol)) : Nat := (script.takeWhile Option.isSome).length

/-- For each of `calls` calls, the number of bytes expected beforehand and the answer. -/
def rounds (leftover : Leftover) :
    Nat → Packer → List (Option Symbol) → List (Nat × Option UInt8)
  | 0, _, _ => []
  | calls + 1, p, script =>
    let (answer, after, rest) := next leftover p script
    (expected leftover p (available script), answer) :: rounds leftover calls after rest

def run (leftover : Leftover) (p : Packer) : List Symbol → List UInt8
  | [] => (flush leftover p).1.toList
  | s :: rest => (absorb p s).1.toList ++ run leftover (absorb p s).2 rest

theorem length_run (leftover : Leftover) (p : Packer) (symbols : List Symbol) (h : p.count < 8) :
    (run leftover p symbols).length = expected leftover p symbols.length := by
  induction symbols generalizing p with
  | nil =>
    cases leftover <;> by_cases hc : 0 < p.count <;> simp [run, flush, expected, hc] <;> omega
  | cons s rest ih =>
    rw [run, List.length_append]
    by_cases hc : 3 ≤ p.count
    · rw [show absorb p s = (some ⟨p.held ||| s.setWidth 8 >>> (p.count - 3)⟩,
        ⟨p.count - 3, s.setWidth 8 <<< (11 - p.count)⟩) from if_pos hc, ih _ (by simp; omega)]
      cases leftover <;> simp only [expected, List.length_cons, Option.toList, List.length_nil] <;>
        omega
    · rw [show absorb p s = (none, ⟨p.count + 5, p.held ||| s.setWidth 8 <<< (3 - p.count)⟩) from
        if_neg hc, ih _ (by simp; omega)]
      cases leftover <;> simp only [expected, List.length_cons, Option.toList, List.length_nil] <;>
        omega

end Packer

def pack (leftover : Leftover) (symbols : List Symbol) : List UInt8 :=
  Packer.idle.run leftover symbols

theorem length_pack (leftover : Leftover) (symbols : List Symbol) :
    (pack leftover symbols).length = Packer.idle.expected leftover symbols.length :=
  Packer.length_run leftover _ symbols (by decide)

theorem length_pack_dropped (symbols : List Symbol) :
    (pack .dropped symbols).length = symbols.length * 5 / 8 := by
  rw [length_pack, Packer.expected, Packer.idle, Nat.zero_add]

/-- Bits on their way from bytes into symbols. -/
structure Unpacker where
  /-- How many bits are held, at most seven. -/
  count : Nat
  /-- The held bits, at the top of the byte. -/
  held : BitVec 8
  deriving DecidableEq

namespace Unpacker

def idle : Unpacker := ⟨0, 0⟩

def top (v : BitVec 8) : Symbol := v.extractLsb' 3 5

def release (u : Unpacker) : Symbol × Unpacker := (top u.held, ⟨u.count - 5, u.held <<< 5⟩)

/-- Takes in one byte while fewer than five bits are held, and gives out a symbol. -/
def absorb (u : Unpacker) (b : UInt8) : Symbol × Unpacker :=
  (top (u.held ||| b.toBitVec >>> u.count), ⟨u.count + 3, b.toBitVec <<< (5 - u.count)⟩)

/-- What an unpacker gives out when its source has no byte: the held bits, followed by zeros. They
stay in `held` while the count drops to zero. -/
def flush (u : Unpacker) : Option Symbol × Unpacker :=
  if 0 < u.count then (some (top u.held), ⟨0, u.held⟩) else (none, u)

/-- Asks for one symbol. The source answers each call with the next entry of `script`, where `none`
is a pause, and pauses for ever after the last entry. -/
def next (u : Unpacker) (script : List (Option UInt8)) :
    Option Symbol × Unpacker × List (Option UInt8) :=
  if 5 ≤ u.count then (some u.release.1, u.release.2, script)
  else
    match script with
    | [] => (u.flush.1, u.flush.2, [])
    | none :: rest => (u.flush.1, u.flush.2, rest)
    | some b :: rest => (some (u.absorb b).1, (u.absorb b).2, rest)

def answers : Nat → Unpacker → List (Option UInt8) → List (Option Symbol)
  | 0, _, _ => []
  | calls + 1, u, script =>
    let (answer, after, rest) := next u script
    answer :: answers calls after rest

def run (u : Unpacker) : List UInt8 → List Symbol
  | [] => if 5 ≤ u.count then u.release.1 :: u.release.2.flush.1.toList else u.flush.1.toList
  | b :: rest =>
    if 5 ≤ u.count then
      u.release.1 :: (u.release.2.absorb b).1 :: run (u.release.2.absorb b).2 rest
    else (u.absorb b).1 :: run (u.absorb b).2 rest

end Unpacker

/-- The symbols of a list of bytes, the last one filled up with zero bits. -/
def unpack (bytes : List UInt8) : List Symbol := Unpacker.idle.run bytes

end LightningInvoice
