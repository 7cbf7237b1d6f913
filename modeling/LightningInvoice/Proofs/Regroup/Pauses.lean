import LightningInvoice.Proofs.Regroup.Calls
import Mathlib.Data.List.Chain

/-!
Sources that pause and go on. A packer that drops its leftover bits does not notice pauses. A packer
that pads, and an unpacker, flush what they hold at a pause and keep the flushed word: it is merged
into the first word of what follows. So the runs between the pauses come out as each of them alone
exactly if no flushed word shows in the run behind it.
-/
namespace LightningInvoice
open Bits

namespace Packer
variable {leftover : Leftover} {p : Packer}

theorem yield_dropped (script : List (Option Symbol)) :
    yield (hear .dropped) p script = run .dropped p (script.filterMap id) := by
  induction script generalizing p with
  | nil => exact yield_nil _ _
  | cons entry rest ih =>
    rw [yield_cons, ih]
    cases entry with
    | none => rfl
    | some s => rfl

theorem awaited_dropped (script : List (Option Symbol)) :
    awaited .dropped p script = script.length := rfl

/-- A call without an answer has heard a pause, after nothing but symbols. -/
theorem pause_of_silent {script : List (Option Symbol)}
    (silent : (next leftover p script).1 = none) :
    ∃ read, (script.take read).all Option.isSome ∧ script.getD read none = none ∧
      (next leftover p script).2.2 = script.drop (read + 1) := by
  fun_induction next leftover p script with
  | case1 p => exact ⟨0, rfl, rfl, rfl⟩
  | case2 p rest => exact ⟨0, rfl, rfl, rfl⟩
  | case3 p s rest b after found => cases silent
  | case4 p s rest after found ih =>
    obtain ⟨read, symbols, pause, later⟩ := ih silent
    exact ⟨read + 1, symbols, pause, later⟩

/-- A packer that drops its leftover bits, at any time: the bytes given out and those that the rest
of the source will bring are the packed bytes of all symbols, wherever the source pauses. All are
out when the script is read to its end, as it is after so many calls as it has entries, and a call
remains without an answer only if it hears a pause. -/
theorem bytes_of_paused {script rest : List (Option Symbol)} {answers : List (Option UInt8)}
    {p : Packer} {n : Nat} (made : calls (next .dropped) n .idle script = (answers, p, rest)) :
    answers.filterMap id ++ run .dropped p (rest.filterMap id) =
        pack .dropped (script.filterMap id) ∧
      (script.length ≤ n → rest = []) ∧
      (rest = [] → answers.filterMap id = pack .dropped (script.filterMap id)) ∧
      ((next .dropped p rest).1 = none →
        ∃ read, (rest.take read).all Option.isSome ∧ rest.getD read none = none ∧
          (next .dropped p rest).2.2 = rest.drop (read + 1)) := by
  have all := (givesOut .dropped).yield_calls n .idle trivial script
  have fewer := (givesOut .dropped).awaited_calls n .idle trivial script
  rw [made] at all fewer
  simp only [yield_dropped] at all
  refine ⟨all.symm, ?_, ?_, pause_of_silent⟩
  · intro enough
    simp only [awaited_dropped] at fewer
    exact List.length_eq_zero_iff.mp (by omega)
  · rintro rfl
    exact (List.append_nil _).symm.trans all.symm

theorem bytes_of_paused_sample :
    calls (next .dropped) 7 .idle [none, some 31, none, none, some 30, some 1, none] =
        ([none, none, none, some 255, none, none, none], ⟨7, 130⟩, []) ∧
      [255] ++ run .dropped ⟨7, 130⟩ [] = pack .dropped [31, 30, 1] ∧
      [none, some 31, none, none, some 30, some 1, none].length ≤ 7 ∧
      [255] = pack .dropped [31, 30, 1] ∧ (next .dropped ⟨7, 130⟩ []).1 = none ∧
      ∃ read, (([] : List (Option Symbol)).take read).all Option.isSome ∧
        ([] : List (Option Symbol)).getD read none = none ∧
        (next .dropped ⟨7, 130⟩ []).2.2 = ([] : List (Option Symbol)).drop (read + 1) := by
  have made : calls (next .dropped) 7 .idle [none, some 31, none, none, some 30, some 1, none] =
      ([none, none, none, some 255, none, none, none], ⟨7, 130⟩, []) := by decide
  obtain ⟨still, toEnd, all, pause⟩ := bytes_of_paused made
  exact ⟨made, still, by decide, all (toEnd (by decide)), rfl, pause rfl⟩

end Packer

/-- A way to write a list of words as a list of words of another width. -/
structure Regrouping (α β : Type) where
  write : List α → List β
  /-- Whether the last word is filled up, its bits being no whole number of words. -/
  filledUp : List α → Bool
  write_eq_nil_iff : ∀ {run}, write run = [] ↔ run = []

namespace Regrouping
variable {α β : Type} [OrOp β] (g : Regrouping α β)

/-- A word that is still held, if there is one, shows in the word that comes next. -/
def merge (stale : Option β) (word : β) : β := stale.elim word (· ||| word)

/-- One run behind a flushed word: what comes out, and the word that is flushed at its end. -/
def blend (stale : Option β) (run : List α) : List β × Option β :=
  let words := (g.write run).modifyHead (merge stale)
  (words, if run.isEmpty then stale else if g.filledUp run then words.getLast? else none)

theorem blend_snd (stale : Option β) {run : List α} (nonempty : run ≠ []) :
    (g.blend stale run).2 = if g.filledUp run then (g.blend stale run).1.getLast? else none := by
  simp [blend, nonempty]

/-- No bit of a word that is still held shows in a run behind it. -/
def HiddenIn (stale : Option β) (run : List α) : Prop :=
  ∀ v ∈ stale, ∀ w ∈ (g.write run).head?, v ||| w = w

/-- The word that is flushed at the end of one run does not show in the next run. -/
def Fits (earlier later : List α) : Prop :=
  g.filledUp earlier → g.HiddenIn (g.write earlier).getLast? later

theorem hiddenIn_none (run : List α) : g.HiddenIn none run := fun _ holds => nomatch holds

theorem blend_fst_eq_iff (stale : Option β) (run : List α) :
    (g.blend stale run).1 = g.write run ↔ g.HiddenIn stale run := by
  cases stale <;> cases written : g.write run <;> simp [blend, merge, HiddenIn, written]

theorem hiddenIn_blend_snd {stale : Option β} {run : List α} (nonempty : run ≠ [])
    (hidden : g.HiddenIn stale run) (later : List α) :
    g.HiddenIn (g.blend stale run).2 later ↔ g.Fits run later := by
  rw [blend_snd _ _ nonempty, (g.blend_fst_eq_iff stale run).mpr hidden, Fits]
  cases g.filledUp run <;> simp [HiddenIn]

/-- The runs that hold an item. -/
def occupied (runs : List (List α)) : List (List α) := runs.filter (!·.isEmpty)

/-- The runs come out as each of them alone exactly if no flushed word shows in the run behind. -/
theorem blend_eq_iff (stale : Option β) (runs : List (List α)) :
    (transduce g.blend stale runs).1 = runs.flatMap g.write ↔
      (∀ run ∈ (occupied runs).head?, g.HiddenIn stale run) ∧
        (occupied runs).IsChain g.Fits := by
  induction runs generalizing stale with
  | nil => simp [transduce, occupied]
  | cons run later ih =>
    by_cases empty : run = []
    · -- nothing comes out, and the word that is held stays for the next run
      subst empty
      have nothing := g.write_eq_nil_iff.mpr rfl
      simpa [transduce, blend, nothing, occupied] using ih stale
    · have kept : occupied (run :: later) = run :: occupied later := by
        simp [occupied, empty]
      have lengths : (g.blend stale run).1.length = (g.write run).length :=
        List.length_modifyHead
      rw [kept, List.isChain_cons, transduce, List.flatMap_cons]
      constructor
      · intro same
        obtain ⟨alone, behind⟩ := List.append_inj same lengths
        have hidden := (g.blend_fst_eq_iff stale run).mp alone
        obtain ⟨first, fits⟩ := (ih _).mp behind
        refine ⟨fun _ isRun => Option.some.inj isRun ▸ hidden, fun next isNext => ?_, fits⟩
        exact (g.hiddenIn_blend_snd empty hidden next).mp (first next isNext)
      · rintro ⟨first, next, fits⟩
        have hidden : g.HiddenIn stale run := first run rfl
        have behind := (ih (g.blend stale run).2).mpr
          ⟨fun _ isNext => (g.hiddenIn_blend_snd empty hidden _).mpr (next _ isNext), fits⟩
        rw [(g.blend_fst_eq_iff stale run).mpr hidden, behind]

end Regrouping

namespace Packer
variable {p : Packer}

/-- Bits that are held where no bits should be show in the first byte only. -/
theorem run_merge (leftover : Leftover) (count : Nat) (stale held : BitVec 8)
    (symbols : List Symbol) :
    run leftover ⟨count, stale ||| held⟩ symbols =
      (run leftover ⟨count, held⟩ symbols).modifyHead (⟨stale⟩ ||| ·) := by
  induction symbols generalizing count held with
  | nil =>
    simp only [run, flush]
    split <;> rfl
  | cons s rest ih =>
    by_cases full : 3 ≤ count
    · simp [run, absorb, full, BitVec.or_assoc]
    · simp [run, absorb, full, BitVec.or_assoc, ih]

/-- The packer behind some symbols, before the source pauses. -/
def taken (p : Packer) (symbols : List Symbol) : Packer :=
  symbols.foldl (fun p s => (absorb p s).2) p

theorem hearRun_eq (leftover : Leftover) (symbols : List Symbol) :
    hearRun (hear leftover) p symbols =
      (run leftover p symbols, (flush leftover (taken p symbols)).2) := by
  refine Prod.ext (yield_items symbols) ?_
  induction symbols generalizing p with
  | nil => rfl
  | cons s rest ih => exact ih

theorem run_eq_append_flush (leftover : Leftover) (symbols : List Symbol) :
    ∃ full, run leftover p symbols = full ++ (flush leftover (taken p symbols)).1.toList := by
  induction symbols generalizing p with
  | nil => exact ⟨[], rfl⟩
  | cons s rest ih =>
    obtain ⟨full, bytes⟩ := ih (p := (absorb p s).2)
    refine ⟨(absorb p s).1.toList ++ full, ?_⟩
    rw [run, bytes, List.append_assoc]
    rfl

theorem count_taken (bounded : p.count < 8) (symbols : List Symbol) :
    (taken p symbols).count = (p.count + symbols.length * 5) % 8 := by
  induction symbols generalizing p with
  | nil => exact (Nat.mod_eq_of_lt bounded).symm
  | cons s rest ih =>
    have count := count_absorb bounded s
    have later := ih (p := (absorb p s).2) (by omega)
    rw [taken, List.foldl_cons, ← taken, later, count, List.length_cons]
    omega

/-- A byte that is filled up to its end leaves nothing held. -/
theorem held_absorb {s : Symbol} (empty : (absorb p s).2.count = 0) : (absorb p s).2.held = 0 := by
  unfold absorb at empty ⊢
  split at empty
  · rename_i full
    rw [if_pos full]
    exact BitVec.shiftLeft_eq_zero (by dsimp only at empty; omega)
  · cases empty

theorem held_taken {symbols : List Symbol} (nonempty : symbols ≠ [])
    (empty : (taken p symbols).count = 0) : (taken p symbols).held = 0 := by
  obtain ⟨before, last, rfl⟩ := (List.eq_nil_or_concat symbols).resolve_left nonempty
  rw [List.concat_eq_append, taken, List.foldl_append] at empty ⊢
  exact held_absorb empty

theorem flush_padded : (flush .padded p).2 = ⟨0, p.held⟩ := by
  unfold flush
  split
  · rfl
  · rename_i noBit
    have empty : p.count = 0 := Nat.eq_zero_of_not_pos fun bit => noBit ⟨rfl, bit⟩
    rw [← empty]

/-- The packer that a flushed byte leaves behind. -/
def behind (stale : Option UInt8) : Packer := ⟨0, stale.elim 0 UInt8.toBitVec⟩

end Packer

namespace Regrouping

def packing : Regrouping Symbol UInt8 where
  write := pack .padded
  filledUp symbols := symbols.length * 5 % 8 != 0
  write_eq_nil_iff {symbols} := by
    rw [← List.length_eq_zero_iff, length_pack_padded, ← List.length_eq_zero_iff]
    omega

end Regrouping

namespace Packer
open Regrouping

theorem run_behind (stale : Option UInt8) (symbols : List Symbol) :
    run .padded (behind stale) symbols = (packing.blend stale symbols).1 := by
  cases stale with
  | none =>
    show pack .padded symbols = (pack .padded symbols).modifyHead (merge none)
    cases pack .padded symbols <;> rfl
  | some b =>
    have held : behind (some b) = ⟨0, b.toBitVec ||| 0⟩ :=
      congrArg (Packer.mk 0) BitVec.or_zero.symm
    rw [held, run_merge]
    rfl

theorem flush_taken_behind (stale : Option UInt8) (symbols : List Symbol) :
    (flush .padded (taken (behind stale) symbols)).2 = behind (packing.blend stale symbols).2 := by
  by_cases empty : symbols = []
  · subst empty
    exact flush_padded
  · have count := count_taken (p := behind stale) (show 0 < 8 by decide) symbols
    rw [show (behind stale).count = 0 from rfl, Nat.zero_add] at count
    rw [flush_padded, blend_snd _ _ empty, ← run_behind]
    by_cases filled : symbols.length * 5 % 8 = 0
    · -- the last symbol ends with a byte, so its bits are all out
      rw [if_neg (by simp [packing, filled]), held_taken empty (count.trans filled)]
      rfl
    · -- the last byte is the flushed one, and its bits stay
      rw [if_pos (by simp [packing, filled])]
      obtain ⟨full, bytes⟩ := run_eq_append_flush (p := behind stale) .padded symbols
      have flushed : (flush .padded (taken (behind stale) symbols)).1 =
          some ⟨(taken (behind stale) symbols).held⟩ := by
        rw [flush, if_pos ⟨rfl, by omega⟩]
      rw [bytes, flushed, Option.toList, List.getLast?_append, List.getLast?_singleton]
      rfl

/-- The runs of a source that pauses, each with the byte that was flushed before it in its first
byte. -/
theorem yield_padded (script : List (Option Symbol)) :
    yield (hear .padded) idle script = (transduce packing.blend none (runs script)).1 := by
  have keep : ∀ {p : Packer} {stale : Option UInt8}, p = behind stale → ∀ symbols,
      (hearRun (hear .padded) p symbols).1 = (packing.blend stale symbols).1 ∧
        (hearRun (hear .padded) p symbols).2 = behind (packing.blend stale symbols).2 := by
    rintro p stale rfl symbols
    rw [hearRun_eq]
    exact ⟨run_behind stale symbols, flush_taken_behind stale symbols⟩
  have start : idle = behind none := rfl
  rw [yield_eq_runs]
  exact transduce_of_related (fun p stale => p = behind stale) keep start _

end Packer

namespace Regrouping

def unpacking : Regrouping UInt8 Symbol where
  write := unpack
  filledUp bytes := bytes.length * 8 % 5 != 0
  write_eq_nil_iff {bytes} := by
    rw [← List.length_eq_zero_iff, length_unpack, ← List.length_eq_zero_iff]
    omega

end Regrouping

namespace Unpacker
variable {u : Unpacker}
open Regrouping

/-- The unpacker behind some bytes, before the source is asked again. -/
def taken (u : Unpacker) (bytes : List UInt8) : Unpacker :=
  bytes.foldl (fun u b => (u.settle.2.absorb b).2) u

theorem hearRun_eq (bytes : List UInt8) :
    hearRun hear u bytes = (run u bytes, (taken u bytes).settle.2.flush.2) := by
  refine Prod.ext (yield_items bytes) ?_
  induction bytes generalizing u with
  | nil => rfl
  | cons b rest ih => exact ih

theorem run_eq_append_flush (bytes : List UInt8) :
    ∃ full, run u bytes = full ++ (taken u bytes).settle.2.flush.1.toList := by
  rw [← yield_items]
  induction bytes generalizing u with
  | nil => exact ⟨u.settle.1, List.append_nil _⟩
  | cons b rest ih =>
    obtain ⟨full, symbols⟩ := ih (u := (u.settle.2.absorb b).2)
    refine ⟨(hear u (some b)).1 ++ full, ?_⟩
    rw [List.map_cons, yield_cons, List.append_assoc]
    exact congrArg _ symbols

theorem count_settle (bounded : u.count < 8) : u.settle.2.count = u.count % 5 := by
  unfold settle
  split
  · dsimp only [release]
    omega
  · dsimp only
    omega

theorem count_taken (bounded : u.count < 8) (bytes : List UInt8) :
    (taken u bytes).count < 8 ∧ (taken u bytes).count % 5 = (u.count + bytes.length * 8) % 5 := by
  induction bytes generalizing u with
  | nil => exact ⟨bounded, rfl⟩
  | cons b rest ih =>
    have count : (u.settle.2.absorb b).2.count = u.count % 5 + 3 := by
      rw [absorb, count_settle bounded]
    obtain ⟨less, later⟩ := ih (u := (u.settle.2.absorb b).2) (by omega)
    refine ⟨less, later.trans ?_⟩
    rw [count, List.length_cons]
    omega

theorem clean_taken (bounded : u.count < 8) {bytes : List UInt8} (nonempty : bytes ≠ []) :
    Clean (taken u bytes).count (taken u bytes).held := by
  obtain ⟨before, last, rfl⟩ := (List.eq_nil_or_concat bytes).resolve_left nonempty
  have few : (taken u before).settle.2.count < 5 := by
    rw [count_settle (count_taken bounded before).1]
    exact Nat.mod_lt _ (by decide)
  rw [List.concat_eq_append, taken, List.foldl_append]
  exact absorb_clean few last

theorem flush_snd : u.flush.2 = ⟨0, u.held⟩ := by
  unfold flush
  split
  · rfl
  · rename_i noBit
    rw [← Nat.eq_zero_of_not_pos noBit]

/-- An unpacker that holds nothing, with the symbol at its top that was flushed last. -/
def Behind (u : Unpacker) (stale : Option Symbol) : Prop :=
  u.count = 0 ∧ top u.held = stale.getD 0

theorem settle_clean (clean : Clean u.count u.held) : Clean u.settle.2.count u.settle.2.held := by
  unfold settle
  split
  · exact release_clean clean
  · exact clean

theorem top_or (v w : BitVec 8) : top (v ||| w) = top v ||| top w := BitVec.extractLsb'_or

theorem run_behind {stale : Option Symbol} (behind : Behind u stale) (bytes : List UInt8) :
    run u bytes = (unpacking.blend stale bytes).1 := by
  obtain ⟨count, held⟩ := u
  obtain ⟨rfl, shown⟩ := behind
  cases bytes with
  | nil => rfl
  | cons b rest =>
    have alone : unpack (b :: rest) = top b.toBitVec :: run ⟨3, b.toBitVec <<< 5⟩ rest := by
      simp [unpack, run, absorb, idle]
    have merged : run ⟨0, held⟩ (b :: rest) =
        (top held ||| top b.toBitVec) :: run ⟨3, b.toBitVec <<< 5⟩ rest := by
      simp [run, absorb, top_or]
    rw [merged, shown, blend]
    simp only [unpacking, alone, List.modifyHead_cons]
    cases stale with
    | none => simp [merge]
    | some v => rfl

theorem flush_taken_behind {stale : Option Symbol} (behind : Behind u stale) (bytes : List UInt8) :
    Behind (taken u bytes).settle.2.flush.2 (unpacking.blend stale bytes).2 := by
  refine ⟨count_flush _, ?_⟩
  rw [flush_snd]
  by_cases empty : bytes = []
  · subst empty
    show top u.settle.2.held = stale.getD 0
    rw [settle_of_few (by rw [behind.1]; decide)]
    exact behind.2
  · have bounded : u.count < 8 := by
      rw [behind.1]
      decide
    obtain ⟨less, count⟩ := count_taken bounded bytes
    rw [behind.1, Nat.zero_add, ← count_settle less] at count
    rw [blend_snd _ _ empty, ← run_behind behind]
    by_cases filled : bytes.length * 8 % 5 = 0
    · rw [if_neg (by simp [unpacking, filled]),
        (settle_clean (clean_taken bounded empty)).held_eq_zero (count.trans filled)]
      rfl
    · rw [if_pos (by simp [unpacking, filled])]
      obtain ⟨full, symbols⟩ := run_eq_append_flush (u := u) bytes
      have flushed : (taken u bytes).settle.2.flush.1 =
          some (top (taken u bytes).settle.2.held) := by
        rw [flush, if_pos (by omega)]
      rw [symbols, flushed, Option.toList, List.getLast?_append, List.getLast?_singleton]
      rfl

/-- The runs of a source that pauses, each with the symbol that was flushed before it in its first
symbol. -/
theorem yield_eq_blend (script : List (Option UInt8)) :
    yield hear idle script = (transduce unpacking.blend none (runs script)).1 := by
  have keep : ∀ {u : Unpacker} {stale : Option Symbol}, Behind u stale → ∀ bytes,
      (hearRun hear u bytes).1 = (unpacking.blend stale bytes).1 ∧
        Behind (hearRun hear u bytes).2 (unpacking.blend stale bytes).2 := by
    intro u stale behind bytes
    rw [hearRun_eq]
    exact ⟨run_behind behind bytes, flush_taken_behind behind bytes⟩
  rw [yield_eq_runs]
  exact transduce_of_related Behind keep ⟨rfl, rfl⟩ _

end Unpacker

open Regrouping

/-- A packer that pads and an unpacker, called until the source's last pause and any number of times
more. What comes out are the runs between the pauses, each merged in its first word with the word
that was flushed before it. They come out as each of them packed or unpacked alone exactly if no
flushed word shows in the run behind it, as when each run but the last fills its words. -/
theorem words_of_paused (symbols : List (Option Symbol)) (bytes : List (Option UInt8))
    (extra : Nat) :
    let packed := ((Packer.rounds .padded (symbols.length + 1 + extra) .idle symbols).map
      Prod.snd).filterMap id
    let unpacked := (Unpacker.answers ((bytes.length + 1) * 2 + extra) .idle bytes).filterMap id
    (packed = (transduce packing.blend none (runs symbols)).1 ∧
      (packed = (runs symbols).flatMap (pack .padded) ↔
        (occupied (runs symbols)).IsChain packing.Fits)) ∧
    (unpacked = (transduce unpacking.blend none (runs bytes)).1 ∧
      (unpacked = (runs bytes).flatMap unpack ↔
        (occupied (runs bytes)).IsChain unpacking.Fits)) := by
  intro packed unpacked
  have packedRuns : packed = (transduce packing.blend none (runs symbols)).1 := by
    have awaited : Packer.awaited .padded .idle symbols = symbols.length := rfl
    rw [show packed = _ from congrArg _ (Packer.answers_rounds _ _ _), ← Packer.yield_padded]
    exact (Packer.givesOut .padded).filterMap_calls .idle trivial (by omega)
  have unpackedRuns : unpacked = (transduce unpacking.blend none (runs bytes)).1 := by
    have awaited : Unpacker.awaited .idle bytes = bytes.length * 2 := rfl
    rw [show unpacked = _ from congrArg _ (Unpacker.answers_eq_calls _ _ _),
      ← Unpacker.yield_eq_blend]
    exact Unpacker.givesOut.filterMap_calls .idle (by decide) (by omega)
  refine ⟨⟨packedRuns, ?_⟩, ⟨unpackedRuns, ?_⟩⟩
  · rw [packedRuns]
    exact (packing.blend_eq_iff none _).trans (and_iff_right fun _ _ => packing.hiddenIn_none _)
  · rw [unpackedRuns]
    exact (unpacking.blend_eq_iff none _).trans (and_iff_right fun _ _ => unpacking.hiddenIn_none _)

/-- Flushed bits show in the run behind them. -/
theorem flushed_words_show :
    ((Packer.rounds .padded 3 .idle [some 31, none, some 0]).map Prod.snd).filterMap id =
        [248, 248] ∧
      (runs [some (31 : Symbol), none, some 0]).flatMap (pack .padded) = [248, 0] ∧
      (Unpacker.answers 5 .idle [some 255, none, some 0]).filterMap id = [31, 28, 28, 0] ∧
      (runs [some (255 : UInt8), none, some 0]).flatMap unpack = [31, 28, 0, 0] := by
  decide

end LightningInvoice
