import LightningInvoice.Proofs.Regroup.Calls
import Mathlib.Algebra.Group.Nat.Defs
import Mathlib.Data.List.TakeWhile

/-!
What a packer says of the number of bytes to come. It computes bounds in 64-bit words, from the
bounds that its source gives for the symbols to come. No step of this leaves the words if the source
has fewer than `2 ^ 60` symbols, and if it knows their number, then the packer knows the number of
its bytes: at the start, between any two calls, and after the last byte.
-/
namespace LightningInvoice

namespace Checked

theorem add?_ofNat {a b : Nat} (fits : a + b < 2 ^ 64) :
    add? (UInt64.ofNat a) (UInt64.ofNat b) = some (UInt64.ofNat (a + b)) := by
  have le : (UInt64.ofNat a).toNat + (UInt64.ofNat b).toNat ≤ a + b :=
    Nat.add_le_add (Nat.mod_le _ _) (Nat.mod_le _ _)
  have lt : (UInt64.ofNat a).toNat + (UInt64.ofNat b).toNat < UInt64.size :=
    Nat.lt_of_le_of_lt le fits
  rw [add?, if_pos lt, UInt64.ofNat_add]

theorem mul?_ofNat {a b : Nat} (fits : a * b < 2 ^ 64) :
    mul? (UInt64.ofNat a) (UInt64.ofNat b) = some (UInt64.ofNat (a * b)) := by
  have le : (UInt64.ofNat a).toNat * (UInt64.ofNat b).toNat ≤ a * b :=
    Nat.mul_le_mul (Nat.mod_le _ _) (Nat.mod_le _ _)
  have lt : (UInt64.ofNat a).toNat * (UInt64.ofNat b).toNat < UInt64.size :=
    Nat.lt_of_le_of_lt le fits
  rw [mul?, if_pos lt, UInt64.ofNat_mul]

end Checked

namespace Packer
variable {leftover : Leftover} {p : Packer}

/-! ### Words -/

theorem expected?_eq (bounded : p.count < 8) {n : Nat} (few : n < 2 ^ 60) :
    expected? leftover p (UInt64.ofNat n) = some (UInt64.ofNat (expected leftover p n)) := by
  have product : Checked.mul? (UInt64.ofNat n) 5 = some (UInt64.ofNat (n * 5)) :=
    Checked.mul?_ofNat (b := 5) (by omega)
  have bits : Checked.add? (UInt64.ofNat p.count) (UInt64.ofNat (n * 5)) =
      some (UInt64.ofNat (p.count + n * 5)) := Checked.add?_ofNat (by omega)
  have raised : Checked.add? (UInt64.ofNat (p.count + n * 5)) 7 =
      some (UInt64.ofNat (p.count + n * 5 + 7)) := Checked.add?_ofNat (b := 7) (by omega)
  simp only [expected?, product, bits, Option.bind_eq_bind, Option.bind_some]
  cases leftover with
  | dropped => exact congrArg some (UInt64.ofNat_div (by omega) (by decide)).symm
  | padded =>
    simp only [raised, Option.bind_some]
    exact congrArg some (UInt64.ofNat_div (by omega) (by decide)).symm

theorem sizeHint?_exactly (bounded : p.count < 8) {n : Nat} (few : n < 2 ^ 60) :
    sizeHint? leftover p (.exactly n) = some (.exactly (expected leftover p n)) := by
  simp only [sizeHint?, SizeHint.exactly, expected?_eq bounded few, Option.bind_eq_bind,
    Option.bind_some]
  rfl

/-! ### Calls -/

theorem available_items (symbols : List Symbol) :
    available (symbols.map some) = symbols.length := by
  have all : (symbols.map some).takeWhile Option.isSome = symbols.map some :=
    List.takeWhile_eq_self_iff.mpr (by simp)
  rw [available, all, List.length_map]

theorem length_yield (bounded : p.count < 8) {script : List (Option Symbol)}
    (goesOn : none ∉ script) :
    (yield (hear leftover) p script).length = expected leftover p (available script) := by
  obtain ⟨symbols, rfl⟩ := exists_items goesOn
  rw [yield_items, length_run _ _ _ bounded, available_items]

/-- Behind `n` rounds, the rounds go on as they would from the state that `n` calls lead to. -/
theorem rounds_drop (leftover : Leftover) (n later : Nat) (p : Packer)
    (script : List (Option Symbol)) :
    (rounds leftover (n + later) p script).drop n =
      rounds leftover later (calls (next leftover) n p script).2.1
        (calls (next leftover) n p script).2.2 := by
  induction n generalizing p script with
  | zero => rw [Nat.zero_add]; rfl
  | succ n ih =>
    rw [Nat.succ_add, rounds, calls_succ]
    exact ih _ _

/-- A packer on its way through some symbols; its source still has the last of them. -/
structure Underway (symbols : List Symbol) (p : Packer) (rest : List (Option Symbol)) : Prop where
  count_lt : p.count < 8
  rest_suffix : rest <:+ symbols.map some

namespace Underway
variable {symbols : List Symbol} {rest : List (Option Symbol)}

theorem start (symbols : List Symbol) : Underway symbols .idle (symbols.map some) :=
  ⟨by decide, List.suffix_rfl⟩

theorem next (leftover : Leftover) (way : Underway symbols p rest) :
    Underway symbols (Packer.next leftover p rest).2.1 (Packer.next leftover p rest).2.2 :=
  ⟨count_next way.count_lt rest, (next_suffix p rest).trans way.rest_suffix⟩

theorem of_calls {n : Nat} (made :
    (calls (Packer.next leftover) n .idle (symbols.map some)).2 = (p, rest)) :
    Underway symbols p rest := by
  have kept := keeps_calls (Packer.next leftover) (next leftover) n (start symbols)
  rwa [made] at kept

theorem goesOn (way : Underway symbols p rest) : none ∉ rest := by
  intro pause
  have entry := way.rest_suffix.subset pause
  simp at entry

theorem available_le (way : Underway symbols p rest) : available rest ≤ symbols.length := by
  have within : rest.length ≤ (symbols.map some).length := way.rest_suffix.length_le
  rw [List.length_map] at within
  exact Nat.le_trans (List.takeWhile_sublist _).length_le within

end Underway

/-- The bytes that calls have not brought out are the end of the packed bytes. -/
theorem yield_of_calls {symbols : List Symbol} {n : Nat} {rest : List (Option Symbol)}
    (made : (calls (next leftover) n .idle (symbols.map some)).2 = (p, rest)) :
    yield (hear leftover) p rest = (pack leftover symbols).drop n := by
  have remains := (givesOut leftover).yield_calls_eq_drop next_suffix yield_of_silent n .idle
    trivial (Underway.start symbols).goesOn
  rwa [made, yield_items] at remains

theorem length_pack_le (leftover : Leftover) (symbols : List Symbol) :
    (pack leftover symbols).length ≤ symbols.length := by
  rw [length_pack]
  cases leftover <;> simp only [expected, idle] <;> omega

/-- The size hint of a packer is exact at any time. Whatever number of calls has been made, both
bounds are the number of the packed bytes that have not come out, and the next calls bring out these
bytes, one by one, before any call is without an answer. -/
theorem sizeHint_of_calls (leftover : Leftover) {symbols : List Symbol}
    (few : symbols.length < 2 ^ 60) {n : Nat} {p : Packer} {rest : List (Option Symbol)}
    (made : (calls (next leftover) n .idle (symbols.map some)).2 = (p, rest)) (extra : Nat) :
    let toCome := (pack leftover symbols).drop n
    sizeHint? leftover p (.exactly (available rest)) = some (.exactly toCome.length) ∧
      toCome.length < 2 ^ 64 ∧
      (calls (next leftover) (toCome.length + extra) p rest).1 =
        toCome.map some ++ List.replicate extra none ∧
      ((rounds leftover (n + 1 + extra) .idle (symbols.map some))[n]?).map Prod.fst =
        some toCome.length := by
  intro toCome
  have way : Underway symbols p rest := .of_calls made
  have still : yield (hear leftover) p rest = toCome := yield_of_calls made
  have count : expected leftover p (available rest) = toCome.length := by
    rw [← still, length_yield way.count_lt way.goesOn]
  refine ⟨?_, ?_, ?_, ?_⟩
  · rw [sizeHint?_exactly way.count_lt (Nat.lt_of_le_of_lt way.available_le few), count]
  · have fewer : toCome.length ≤ (pack leftover symbols).length := by
      rw [List.length_drop]
      exact Nat.sub_le _ _
    have bytes := length_pack_le leftover symbols
    omega
  · have brought := (givesOut leftover).calls_eq next_suffix yield_of_silent extra p trivial
      way.goesOn
    rwa [still] at brought
  · have later := rounds_drop leftover n (1 + extra) .idle (symbols.map some)
    rw [made] at later
    rw [Nat.add_assoc, ← List.head?_drop, later, Nat.add_comm 1, rounds]
    exact congrArg some count

theorem sizeHint_of_calls_sample :
    [(31 : Symbol), 30, 1].length < 2 ^ 60 ∧
      (calls (next .padded) 1 .idle [some 31, some 30, some 1]).2 = (⟨2, 128⟩, [some 1]) ∧
      sizeHint? .padded ⟨2, 128⟩ (.exactly 1) = some (.exactly 1) ∧
      (calls (next .padded) 4 ⟨2, 128⟩ [some 1]).1 = [some 130, none, none, none] ∧
      ((rounds .padded 5 .idle [some 31, some 30, some 1])[1]?).map Prod.fst = some 1 := by
  have few : [(31 : Symbol), 30, 1].length < 2 ^ 60 := by decide
  have made : (calls (next .padded) 1 .idle [some 31, some 30, some 1]).2 =
      (⟨2, 128⟩, [some 1]) := by decide
  obtain ⟨hint, -, answers, shown⟩ := sizeHint_of_calls .padded few made 3
  exact ⟨few, made, hint, answers, shown⟩

end Packer
end LightningInvoice
