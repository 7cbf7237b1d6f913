import LightningInvoice.Proofs.Calls
import LightningInvoice.Proofs.Regroup.Inverse

/-!
Packers and unpackers that are asked for one word at a time. With a source that does not pause
before its end, they bring out the packed or unpacked list and then nothing; bit by bit that list is
the list that was read, without the last bits or with zeros behind them.
-/
namespace LightningInvoice
open Bits

namespace Packer
variable {leftover : Leftover} {p : Packer}

/-- What a packer makes of one answer of its source. -/
def hear (leftover : Leftover) (p : Packer) : Option Symbol → List UInt8 × Packer
  | some s => ((absorb p s).1.toList, (absorb p s).2)
  | none => ((flush leftover p).1.toList, (flush leftover p).2)

theorem flush_flush : (flush leftover (flush leftover p).2).1 = none := by
  by_cases holds : leftover = .padded ∧ 0 < p.count
  · simp [flush, if_pos holds]
  · simp [flush, if_neg holds]

theorem count_flush_le : (flush leftover p).2.count ≤ p.count := by
  unfold flush
  split
  · exact Nat.zero_le _
  · exact Nat.le_refl _

theorem count_next (bounded : p.count < 8) (script : List (Option Symbol)) :
    (next leftover p script).2.1.count < 8 := by
  fun_induction next leftover p script with
  | case1 p => exact Nat.lt_of_le_of_lt count_flush_le bounded
  | case2 p rest => exact Nat.lt_of_le_of_lt count_flush_le bounded
  | case3 p s rest b after found =>
    have count := count_absorb bounded s
    rw [found] at count
    dsimp only at count ⊢
    omega
  | case4 p s rest after found ih =>
    have count := count_absorb bounded s
    rw [found] at count
    dsimp only at count
    exact ih (by omega)

theorem yield_next (script : List (Option Symbol)) : yield (hear leftover) p script =
    (next leftover p script).1.toList ++
      yield (hear leftover) (next leftover p script).2.1 (next leftover p script).2.2 := by
  fun_induction next leftover p script with
  | case1 p =>
    rw [yield_nil, yield_nil, hear, hear, flush_flush]
    exact (List.append_nil _).symm
  | case2 p rest => rfl
  | case3 p s rest b after found => rw [yield_cons, hear, found]
  | case4 p s rest after found ih =>
    rw [yield_cons, hear, found]
    exact ih

/-- How many calls can still be answered with a byte at most: one for each entry of the script, and
one for the held bits. -/
def awaited (leftover : Leftover) (p : Packer) (script : List (Option Symbol)) : Nat :=
  script.length + (flush leftover p).1.toList.length

theorem length_flush :
    (flush leftover p).1.toList.length = if leftover = .padded ∧ 0 < p.count then 1 else 0 := by
  rw [flush]
  split <;> rfl

theorem count_of_byte {s : Symbol} {b : UInt8} (full : (absorb p s).1 = some b) : 3 ≤ p.count := by
  rw [absorb] at full
  split at full
  · assumption
  · cases full

theorem awaited_next (script : List (Option Symbol)) :
    awaited leftover (next leftover p script).2.1 (next leftover p script).2.2 ≤
      awaited leftover p script - 1 := by
  fun_induction next leftover p script with
  | case1 p => simp [awaited, flush_flush]
  | case2 p rest => simp [awaited, flush_flush]
  | case3 p s rest b after found =>
    have held := count_of_byte (congrArg Prod.fst found)
    simp only [awaited, length_flush, List.length_cons]
    split <;> rename_i ends
    · rw [if_pos ⟨ends.1, by omega⟩]
      omega
    · omega
  | case4 p s rest after found ih =>
    refine Nat.le_trans ih ?_
    simp only [awaited, length_flush, List.length_cons]
    split <;> omega

theorem givesOut (leftover : Leftover) :
    GivesOut (next leftover) (hear leftover) (fun _ => True) (awaited leftover) where
  valid_next _ _ := trivial
  yield_next _ script := yield_next script
  awaited_next _ script := awaited_next script
  done {p script} nothing := by
    have ⟨noEntry, noByte⟩ := Nat.add_eq_zero_iff.mp nothing
    rw [List.length_eq_zero_iff.mp noEntry, yield_nil]
    exact List.length_eq_zero_iff.mp noByte

/-- A call reads its source from the front. -/
theorem next_suffix (p : Packer) (script : List (Option Symbol)) :
    (next leftover p script).2.2 <:+ script := by
  fun_induction next leftover p script with
  | case1 p => exact List.suffix_rfl
  | case2 p rest => exact List.suffix_cons _ _
  | case3 p s rest b after found => exact List.suffix_cons _ _
  | case4 p s rest after found ih => exact ih.trans (List.suffix_cons _ _)

theorem yield_of_silent {script : List (Option Symbol)} (goesOn : none ∉ script)
    (silent : (next leftover p script).1 = none) : yield (hear leftover) p script = [] := by
  fun_induction next leftover p script with
  | case1 p =>
    rw [yield_nil, hear, silent]
    rfl
  | case2 p rest => exact absurd List.mem_cons_self goesOn
  | case3 p s rest b after found => cases silent
  | case4 p s rest after found ih =>
    rw [yield_cons, hear, found]
    exact ih (fun h => goesOn (List.mem_cons_of_mem _ h)) silent

theorem answers_rounds (n : Nat) (p : Packer) (script : List (Option Symbol)) :
    (rounds leftover n p script).map Prod.snd = (calls (next leftover) n p script).1 := by
  induction n generalizing p script with
  | zero => rfl
  | succ n ih => exact congrArg (_ :: ·) (ih _ _)

theorem yield_items (symbols : List Symbol) :
    yield (hear leftover) p (symbols.map some) = run leftover p symbols := by
  induction symbols generalizing p with
  | nil => exact yield_nil _ _
  | cons s rest ih =>
    rw [List.map_cons, yield_cons, run]
    exact congrArg _ ih

end Packer

namespace Unpacker
variable {u : Unpacker}

/-- Gives out a symbol if there are five bits for it. -/
def settle (u : Unpacker) : List Symbol × Unpacker :=
  if 5 ≤ u.count then ([u.release.1], u.release.2) else ([], u)

/-- What an unpacker makes of one answer of its source. A symbol that was complete before comes out
with it, since the source is asked for the next one only. -/
def hear (u : Unpacker) : Option UInt8 → List Symbol × Unpacker
  | some b => (u.settle.1 ++ [(u.settle.2.absorb b).1], (u.settle.2.absorb b).2)
  | none => (u.settle.1 ++ u.settle.2.flush.1.toList, u.settle.2.flush.2)

theorem settle_of_enough (enough : 5 ≤ u.count) : settle u = ([u.release.1], u.release.2) :=
  if_pos enough

theorem settle_of_few (few : u.count < 5) : settle u = ([], u) := if_neg (Nat.not_le_of_lt few)

theorem hear_of_enough (enough : 5 ≤ u.count) (bounded : u.count < 8) (entry : Option UInt8) :
    hear u entry = (u.release.1 :: (hear u.release.2 entry).1, (hear u.release.2 entry).2) := by
  have few : u.release.2.count < 5 := by
    dsimp only [release]
    omega
  cases entry <;> rw [hear, hear, settle_of_enough enough, settle_of_few few] <;> rfl

theorem yield_of_enough (enough : 5 ≤ u.count) (bounded : u.count < 8)
    (script : List (Option UInt8)) :
    yield hear u script = u.release.1 :: yield hear u.release.2 script := by
  cases script <;>
    simp only [yield, List.nil_append, List.cons_append, transduce, hear_of_enough enough bounded]

theorem yield_nil_of_few (few : u.count < 5) : yield hear u [] = u.flush.1.toList := by
  rw [yield_nil, hear, settle_of_few few]
  rfl

theorem count_flush (u : Unpacker) : u.flush.2.count = 0 := by
  rw [flush]
  split
  · rfl
  · exact Nat.eq_zero_of_not_pos ‹_›

theorem flush_flush (u : Unpacker) : u.flush.2.flush.1 = none := by
  rw [flush, if_neg (by rw [count_flush]; decide)]

theorem count_next (bounded : u.count < 8) (script : List (Option UInt8)) :
    (next u script).2.1.count < 8 := by
  fun_cases next u script with
  | case1 script enough =>
    dsimp only [release]
    omega
  | case2 few => simp [count_flush]
  | case3 few rest => simp [count_flush]
  | case4 few b rest =>
    dsimp only [absorb]
    omega

theorem yield_next (bounded : u.count < 8) (script : List (Option UInt8)) : yield hear u script =
    (next u script).1.toList ++ yield hear (next u script).2.1 (next u script).2.2 := by
  fun_cases next u script with
  | case1 script enough => exact yield_of_enough enough bounded script
  | case2 few =>
    rw [yield_nil_of_few (Nat.lt_of_not_le few), yield_nil_of_few (by rw [count_flush]; decide),
      flush_flush]
    exact (List.append_nil _).symm
  | case3 few rest =>
    rw [yield_cons, hear, settle_of_few (Nat.lt_of_not_le few)]
    rfl
  | case4 few b rest =>
    rw [yield_cons, hear, settle_of_few (Nat.lt_of_not_le few)]
    rfl

/-- How many calls can still be answered with a symbol at most: two for each entry of the script,
and those for the held bits. -/
def awaited (u : Unpacker) (script : List (Option UInt8)) : Nat :=
  script.length * 2 + (u.count + 4) / 5

theorem awaited_next (bounded : u.count < 8) (script : List (Option UInt8)) :
    awaited (next u script).2.1 (next u script).2.2 ≤ awaited u script - 1 := by
  fun_cases next u script with
  | case1 script enough =>
    simp only [awaited, release]
    omega
  | case2 few => simp [awaited, count_flush]
  | case3 few rest =>
    simp only [awaited, count_flush, List.length_cons]
    omega
  | case4 few b rest =>
    simp only [awaited, absorb, List.length_cons]
    omega

theorem givesOut : GivesOut next hear (·.count < 8) awaited where
  valid_next bounded script := count_next bounded script
  yield_next bounded script := yield_next bounded script
  awaited_next bounded script := awaited_next bounded script
  done {u script} nothing := by
    obtain ⟨noEntry, noBit⟩ := Nat.add_eq_zero_iff.mp nothing
    have empty : u.count = 0 := by omega
    have noScript : script = [] := List.length_eq_zero_iff.mp (by omega)
    rw [noScript, yield_nil_of_few (by omega), flush, if_neg (by omega)]
    rfl

theorem next_suffix (u : Unpacker) (script : List (Option UInt8)) :
    (next u script).2.2 <:+ script := by
  fun_cases next u script with
  | case1 script enough => exact List.suffix_rfl
  | case2 few => exact List.suffix_rfl
  | case3 few rest => exact List.suffix_cons _ _
  | case4 few b rest => exact List.suffix_cons _ _

theorem yield_of_silent {script : List (Option UInt8)} (goesOn : none ∉ script)
    (silent : (next u script).1 = none) : yield hear u script = [] := by
  unfold next at silent
  split at silent
  · cases silent
  · rename_i few
    split at silent
    · rw [yield_nil_of_few (Nat.lt_of_not_le few), silent]
      rfl
    · exact absurd List.mem_cons_self goesOn
    · cases silent

theorem answers_eq_calls (n : Nat) (u : Unpacker) (script : List (Option UInt8)) :
    answers n u script = (calls next n u script).1 := by
  induction n generalizing u script with
  | zero => rfl
  | succ n ih => exact congrArg (_ :: ·) (ih _ _)

theorem yield_items (bytes : List UInt8) : yield hear u (bytes.map some) = run u bytes := by
  induction bytes generalizing u with
  | nil =>
    rw [run]
    split
    · rename_i enough
      rw [List.map_nil, yield_nil, hear, settle_of_enough enough]
      rfl
    · rename_i few
      exact yield_nil_of_few (Nat.lt_of_not_le few)
  | cons b rest ih =>
    rw [List.map_cons, yield_cons, ih, run, hear]
    split
    · rename_i enough
      rw [settle_of_enough enough]
      rfl
    · rename_i few
      rw [settle_of_few (Nat.lt_of_not_le few)]
      rfl

end Unpacker

/-- Asked for one byte after the other while it has nothing but symbols to read, a packer brings out
the packed bytes, and then nothing. -/
theorem rounds_pack (leftover : Leftover) (symbols : List Symbol) (extra : Nat) :
    (Packer.rounds leftover ((pack leftover symbols).length + extra) .idle
      (symbols.map some)).map Prod.snd =
        (pack leftover symbols).map some ++ List.replicate extra none := by
  have goesOn : none ∉ symbols.map some := by simp
  have brought := (Packer.givesOut leftover).calls_eq Packer.next_suffix Packer.yield_of_silent
    extra .idle trivial goesOn
  rwa [Packer.yield_items, ← Packer.answers_rounds] at brought

theorem answers_unpack (bytes : List UInt8) (extra : Nat) :
    Unpacker.answers ((unpack bytes).length + extra) .idle (bytes.map some) =
      (unpack bytes).map some ++ List.replicate extra none := by
  have goesOn : none ∉ bytes.map some := by simp
  have brought := Unpacker.givesOut.calls_eq Unpacker.next_suffix Unpacker.yield_of_silent extra
    .idle (by decide) goesOn
  rwa [Unpacker.yield_items, ← Unpacker.answers_eq_calls] at brought

/-- Packing and unpacking in terms of bit strings. Packed bytes without the leftover bits are the
whole bytes that the bits of the symbols begin with; with them, and for unpacked symbols, the bits
are filled up with zeros to the next whole byte or symbol. A packer or unpacker that is called often
enough brings out these words one by one, and then nothing. -/
theorem regroup_bits (symbols : List Symbol) (bytes : List UInt8) (leftover : Leftover)
    (extra : Nat) :
    ((pack .dropped symbols).length = symbols.length * 5 / 8 ∧
      ofBytes (pack .dropped symbols) = (ofWords symbols).take (symbols.length * 5 / 8 * 8)) ∧
    ((pack .padded symbols).length = (symbols.length * 5 + 7) / 8 ∧
      ofBytes (pack .padded symbols) =
        (ofWords symbols).rightpad ((symbols.length * 5 + 7) / 8 * 8) false) ∧
    ((unpack bytes).length = (bytes.length * 8 + 4) / 5 ∧
      ofWords (unpack bytes) =
        (ofBytes bytes).rightpad ((bytes.length * 8 + 4) / 5 * 5) false ∧
      (unpack bytes).all (·.toNat < 32)) ∧
    (Packer.rounds leftover ((pack leftover symbols).length + extra) .idle
      (symbols.map some)).map Prod.snd =
        (pack leftover symbols).map some ++ List.replicate extra none ∧
    Unpacker.answers ((unpack bytes).length + extra) .idle (bytes.map some) =
      (unpack bytes).map some ++ List.replicate extra none :=
  ⟨⟨length_pack_dropped symbols, ofBytes_pack_dropped symbols⟩,
    ⟨length_pack_padded symbols, ofBytes_pack_padded symbols⟩,
    ⟨length_unpack bytes, ofWords_unpack bytes,
      List.all_eq_true.mpr fun s _ => decide_eq_true s.isLt⟩,
    rounds_pack leftover symbols extra, answers_unpack bytes extra⟩

end LightningInvoice
