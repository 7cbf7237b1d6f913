/-!
Machines that are asked for one word at a time, and whose source may pause and go on. A machine
hears the answers of its source one after the other, and each makes it give out some words. Calls
only cut this work into pieces: what some calls have given out, followed by what is still to come,
is what the machine makes of the whole script, and so run by run between the pauses.
-/
namespace LightningInvoice

/-- What a machine gives out for its inputs, one after the other, and the state it ends in. -/
def transduce {σ ι ω : Type} (step : σ → ι → List ω × σ) (start : σ) : List ι → List ω × σ
  | [] => ([], start)
  | input :: rest =>
    ((step start input).1 ++ (transduce step (step start input).2 rest).1,
      (transduce step (step start input).2 rest).2)

theorem transduce_append {σ ι ω : Type} (step : σ → ι → List ω × σ) (start : σ) (a b : List ι) :
    transduce step start (a ++ b) =
      ((transduce step start a).1 ++ (transduce step (transduce step start a).2 b).1,
        (transduce step (transduce step start a).2 b).2) := by
  induction a generalizing start with
  | nil => rfl
  | cons input rest ih => simp only [List.cons_append, transduce, ih, List.append_assoc]

theorem transduce_flatMap {σ ι κ ω : Type} (step : σ → ι → List ω × σ) (f : κ → List ι)
    (start : σ) (inputs : List κ) : transduce step start (inputs.flatMap f) =
      transduce (fun state input => transduce step state (f input)) start inputs := by
  induction inputs generalizing start with
  | nil => rfl
  | cons input rest ih => rw [List.flatMap_cons, transduce_append, ih, transduce]

/-- Two machines that stay in related states give out the same. -/
theorem transduce_of_related {σ τ ι ω : Type} {step : σ → ι → List ω × σ}
    {other : τ → ι → List ω × τ} (related : σ → τ → Prop)
    (keep : ∀ {s t}, related s t → ∀ input,
      (step s input).1 = (other t input).1 ∧ related (step s input).2 (other t input).2)
    {s : σ} {t : τ} (start : related s t) (inputs : List ι) :
    (transduce step s inputs).1 = (transduce other t inputs).1 := by
  induction inputs generalizing s t with
  | nil => rfl
  | cons input rest ih =>
    obtain ⟨same, after⟩ := keep start input
    rw [transduce, transduce, same, ih after]

section Calls
variable {σ α ω : Type}

/-- The items of a script between one pause and the next. -/
def runs : List (Option α) → List (List α)
  | [] => [[]]
  | none :: rest => [] :: runs rest
  | some a :: rest => (runs rest).modifyHead (a :: ·)

theorem flatMap_runs (script : List (Option α)) :
    (runs script).flatMap (fun run => run.map some ++ [none]) = script ++ [none] := by
  induction script with
  | nil => rfl
  | cons entry rest ih =>
    cases entry with
    | none =>
      rw [runs, List.flatMap_cons, ih]
      rfl
    | some a =>
      rw [runs, List.cons_append, ← ih]
      cases found : runs rest with
      | nil => simp [found] at ih
      | cons run later => rfl

/-- A script without a pause is a list of items. -/
theorem exists_items {script : List (Option α)} (goesOn : none ∉ script) :
    ∃ items : List α, script = items.map some := by
  have all : ∀ entry ∈ script, entry.isSome = true :=
    fun entry member => Option.isSome_iff_ne_none.mpr fun pause => goesOn (pause ▸ member)
  refine ⟨script.filterMap id, ?_⟩
  rw [List.map_filterMap_some_eq_filter_map_isSome, List.map_id, List.filter_eq_self.mpr all]

/-- What a machine makes of some items and the pause behind them, where `hear` is what it makes of
one answer of its source. -/
def hearRun (hear : σ → Option α → List ω × σ) (state : σ) (run : List α) : List ω × σ :=
  transduce hear state (run.map some ++ [none])

/-- What comes out until the source pauses behind the end of the script. -/
def yield (hear : σ → Option α → List ω × σ) (state : σ) (script : List (Option α)) : List ω :=
  (transduce hear state (script ++ [none])).1

theorem yield_cons (hear : σ → Option α → List ω × σ) (state : σ) (entry : Option α)
    (rest : List (Option α)) :
    yield hear state (entry :: rest) =
      (hear state entry).1 ++ yield hear (hear state entry).2 rest := rfl

theorem yield_nil (hear : σ → Option α → List ω × σ) (state : σ) :
    yield hear state [] = (hear state none).1 := List.append_nil _

theorem yield_eq_runs (hear : σ → Option α → List ω × σ) (state : σ) (script : List (Option α)) :
    yield hear state script = (transduce (hearRun hear) state (runs script)).1 := by
  rw [yield, ← flatMap_runs, transduce_flatMap]
  rfl

theorem map_getElem?_range (words : List ω) (extra : Nat) :
    (List.range (words.length + extra)).map (fun i => words[i]?) =
      words.map some ++ List.replicate extra none := by
  induction words with
  | nil => simp [List.map_const']
  | cons word rest ih =>
    rw [List.length_cons, Nat.succ_add, List.range_succ_eq_map, List.map_cons, List.map_map]
    exact congrArg (some word :: ·) ih

variable (next : σ → List (Option α) → Option ω × σ × List (Option α))

/-- The answers to `n` calls in a row, with the state and the rest of the script behind them. -/
def calls : Nat → σ → List (Option α) → List (Option ω) × σ × List (Option α)
  | 0, state, script => ([], state, script)
  | n + 1, state, script =>
    let (answer, after, rest) := next state script
    let (more, last) := calls n after rest
    (answer :: more, last)

theorem calls_succ (n : Nat) (state : σ) (script : List (Option α)) :
    calls next (n + 1) state script =
      ((next state script).1 :: (calls next n (next state script).2.1 (next state script).2.2).1,
        (calls next n (next state script).2.1 (next state script).2.2).2) := rfl

/-- What every call keeps is kept by any number of them. -/
theorem keeps_calls {holds : σ → List (Option α) → Prop}
    (keeps : ∀ {state script}, holds state script →
      holds (next state script).2.1 (next state script).2.2)
    (n : Nat) {state : σ} {script : List (Option α)} (start : holds state script) :
    holds (calls next n state script).2.1 (calls next n state script).2.2 := by
  induction n generalizing state script with
  | zero => exact start
  | succ n ih =>
    rw [calls_succ]
    exact ih (keeps start)

/-- Calls give out what `hear` makes of the source's answers. Each of them makes the measure
`awaited` smaller, until it is zero and nothing is left to be given out. -/
structure GivesOut (hear : σ → Option α → List ω × σ) (valid : σ → Prop)
    (awaited : σ → List (Option α) → Nat) : Prop where
  valid_next : ∀ {state}, valid state → ∀ script, valid (next state script).2.1
  yield_next : ∀ {state}, valid state → ∀ script, yield hear state script =
    (next state script).1.toList ++ yield hear (next state script).2.1 (next state script).2.2
  awaited_next : ∀ {state}, valid state → ∀ script,
    awaited (next state script).2.1 (next state script).2.2 ≤ awaited state script - 1
  done : ∀ {state script}, awaited state script = 0 → yield hear state script = []

namespace GivesOut
variable {next} {hear : σ → Option α → List ω × σ} {valid : σ → Prop}
  {awaited : σ → List (Option α) → Nat} {script : List (Option α)}

/-- At any time: the words given out, and the words still to come. -/
theorem yield_calls (gives : GivesOut next hear valid awaited) (n : Nat) (state : σ)
    (ok : valid state) (script : List (Option α)) :
    yield hear state script = (calls next n state script).1.filterMap id ++
      yield hear (calls next n state script).2.1 (calls next n state script).2.2 := by
  induction n generalizing state script with
  | zero => rfl
  | succ n ih =>
    rw [gives.yield_next ok, ih _ (gives.valid_next ok script) _, ← List.append_assoc, calls_succ]
    cases (next state script).1 <;> rfl

theorem awaited_calls (gives : GivesOut next hear valid awaited) (n : Nat) (state : σ)
    (ok : valid state) (script : List (Option α)) :
    awaited (calls next n state script).2.1 (calls next n state script).2.2 ≤
      awaited state script - n := by
  induction n generalizing state script with
  | zero => exact Nat.le_refl _
  | succ n ih =>
    have fewer := gives.awaited_next ok script
    have later := ih _ (gives.valid_next ok script) (next state script).2.2
    exact Nat.le_trans later (by omega)

/-- Enough calls give out everything. -/
theorem filterMap_calls (gives : GivesOut next hear valid awaited) {n : Nat} (state : σ)
    (ok : valid state) (enough : awaited state script ≤ n) :
    (calls next n state script).1.filterMap id = yield hear state script := by
  have fewer := gives.awaited_calls n state ok script
  rw [gives.yield_calls n state ok, gives.done (by omega), List.append_nil]

/-! ### Sources that do not pause before their end -/

section Steady
variable (gives : GivesOut next hear valid awaited)
  (taken : ∀ state script, (next state script).2.2 <:+ script)
  (silent : ∀ {state script}, none ∉ script → (next state script).1 = none →
    yield hear state script = [])
include gives silent

/-- A call takes the first of the words that are still to come, if there is one. -/
theorem takes_first {state : σ} (ok : valid state) (goesOn : none ∉ script) :
    (next state script).1 = (yield hear state script).head? ∧
      yield hear (next state script).2.1 (next state script).2.2 =
        (yield hear state script).tail := by
  have step := gives.yield_next ok script
  cases answer : (next state script).1 with
  | some word =>
    rw [step, answer]
    exact ⟨rfl, rfl⟩
  | none =>
    -- No word was left before the call, so none is left behind it.
    rw [answer, silent goesOn answer] at step
    rw [silent goesOn answer]
    exact ⟨rfl, step.symm⟩

include taken

theorem yield_calls_eq_drop (n : Nat) (state : σ) (ok : valid state) (goesOn : none ∉ script) :
    yield hear (calls next n state script).2.1 (calls next n state script).2.2 =
      (yield hear state script).drop n := by
  induction n generalizing state script with
  | zero => rfl
  | succ n ih =>
    have stillOn : none ∉ (next state script).2.2 :=
      fun pause => goesOn ((taken _ _).subset pause)
    obtain ⟨-, later⟩ := takes_first gives silent ok goesOn
    rw [calls_succ, ih _ (gives.valid_next ok script) stillOn, later, List.drop_tail]

theorem calls_eq_map_range (n : Nat) (state : σ) (ok : valid state) (goesOn : none ∉ script) :
    (calls next n state script).1 =
      (List.range n).map fun i => (yield hear state script)[i]? := by
  induction n generalizing state script with
  | zero => rfl
  | succ n ih =>
    have stillOn : none ∉ (next state script).2.2 :=
      fun pause => goesOn ((taken _ _).subset pause)
    obtain ⟨first, later⟩ := takes_first gives silent ok goesOn
    rw [calls_succ, ih _ (gives.valid_next ok script) stillOn, first, later,
      List.range_succ_eq_map, List.map_cons, List.map_map, List.head?_eq_getElem?]
    exact congrArg _ (List.map_congr_left fun i _ => List.getElem?_tail)

/-- The calls bring out the words one by one, and afterwards nothing. -/
theorem calls_eq (extra : Nat) (state : σ) (ok : valid state) (goesOn : none ∉ script) :
    (calls next ((yield hear state script).length + extra) state script).1 =
      (yield hear state script).map some ++ List.replicate extra none := by
  rw [calls_eq_map_range gives taken silent _ _ ok goesOn, map_getElem?_range]

end Steady

end GivesOut
end Calls
end LightningInvoice
