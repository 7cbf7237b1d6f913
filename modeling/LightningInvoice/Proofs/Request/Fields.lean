import LightningInvoice.Report

/-!
The tagged fields of a request. Framed fields are prefix-free, so a stream has one division into
fields and a remainder that opens no whole field. A stream is read if and only if nothing remains
and no field is refused, and then the tags are those of the fields that are not passed over.
-/
namespace LightningInvoice
namespace Frame

theorem declared_length (f : Frame) :
    declared (BitVec.ofNat 5 (f.payload.length / 32)) (BitVec.ofNat 5 (f.payload.length % 32)) =
      f.payload.length := by
  have lt := f.length_lt
  have upper : f.payload.length / 32 < 32 := by omega
  have lower : f.payload.length % 32 < 32 := Nat.mod_lt _ (by decide)
  rw [declared, BitVec.toNat_ofNat, BitVec.toNat_ofNat, Nat.mod_eq_of_lt upper,
    Nat.mod_eq_of_lt lower]
  omega

theorem take?_symbols (f : Frame) (rest : List Symbol) :
    take? (f.symbols ++ rest) = some (f, rest) := by
  obtain ⟨code, payload, length_lt⟩ := f
  have length := declared_length ⟨code, payload, length_lt⟩
  dsimp only at length
  simp only [symbols, lengthSymbols, List.cons_append, List.nil_append, take?, length,
    List.length_append, Nat.le_add_right, if_true, List.take_left, List.drop_left]

theorem split_flatMap (frames : List Frame) {rest : List Symbol} (spent : take? rest = none) :
    split (frames.flatMap symbols ++ rest) = (frames, rest) := by
  induction frames with
  | nil =>
    rw [List.flatMap_nil, List.nil_append, split]
    split
    · rfl
    · rename_i some_
      exact absurd (spent.symm.trans some_) (by simp)
  | cons f more ih =>
    rw [List.flatMap_cons, List.append_assoc, split]
    split
    · rename_i none
      exact absurd ((take?_symbols f _).symm.trans none) (by simp)
    · rename_i g tail found
      obtain ⟨rfl, rfl⟩ := Prod.mk.inj (Option.some.inj (found.symm.trans (take?_symbols f _)))
      rw [ih]

theorem flatMap_symbols_injective {a b : List Frame} {restA restB : List Symbol}
    (spentA : take? restA = none) (spentB : take? restB = none)
    (h : a.flatMap symbols ++ restA = b.flatMap symbols ++ restB) : a = b ∧ restA = restB := by
  have cut := split_flatMap a spentA
  rw [h, split_flatMap b spentB] at cut
  exact ⟨(Prod.mk.inj cut).1.symm, (Prod.mk.inj cut).2.symm⟩

/-- The framed fields are a code, two symbols for a length, and as many symbols as these two say. -/
theorem exists_eq_symbols_iff {field : List Symbol} :
    (∃ f : Frame, field = f.symbols) ↔ ∃ code upper lower payload,
      field = code :: upper :: lower :: payload ∧
        payload.length = 32 * upper.toNat + lower.toNat := by
  constructor
  · rintro ⟨f, rfl⟩
    refine ⟨_, _, _, _, rfl, ?_⟩
    have length := declared_length f
    rw [declared, Nat.mul_comm] at length
    exact length.symm
  · rintro ⟨code, upper, lower, payload, rfl, length⟩
    have same : payload.length = declared upper lower := by rw [length, declared, Nat.mul_comm]
    refine ⟨⟨code, payload, by rw [same]; exact declared_lt upper lower⟩, ?_⟩
    show code :: upper :: lower :: payload = code :: lengthSymbols payload.length ++ payload
    rw [same, lengthSymbols_declared]
    rfl

/-- The field is kept or passed over, and not refused. -/
def Readable (f : Frame) : Prop := (∃ t, f.tag = .ok t) ∨ f.tag = .error .skip

instance (f : Frame) : Decidable f.Readable :=
  match meaning : f.tag with
  | .ok t => isTrue (Or.inl ⟨t, meaning⟩)
  | .error .skip => isTrue (Or.inr meaning)
  | .error (.malformed _) | .error .wrongChecksum | .error (.invalidCharacter _)
  | .error .mixedCase | .error (.tooLong _ _) => isFalse (by simp [Readable, meaning])

/-- The tags of the fields that are not passed over. -/
def kept (frames : List Frame) : List Tag := frames.filterMap fun f => f.tag.toOption

theorem kept_cons_of_ok {f : Frame} {t : Tag} (h : f.tag = .ok t) (rest : List Frame) :
    kept (f :: rest) = t :: kept rest := by
  rw [kept, List.filterMap_cons, h]
  rfl

theorem kept_cons_of_error {f : Frame} {e : ParseError} (h : f.tag = .error e)
    (rest : List Frame) : kept (f :: rest) = kept rest := by
  rw [kept, List.filterMap_cons, h]
  rfl

/-- What is noted of a field that does not stop the reading. -/
def notes (f : Frame) : List Note :=
  match f.tag with
  | .ok t => t.notes
  | .error _ => [.skipped f.code f.payload.length]

theorem take?_split (stream : List Symbol) : take? (split stream).2 = none := by
  fun_induction split stream with
  | case1 stream spent => exact spent
  | case2 _ _ _ _ ih => exact ih

/-- Fields are read up to the first that is refused, if there is one. -/
theorem readable_or_refused (frames : List Frame) :
    (∀ f ∈ frames, f.Readable) ∨
      ∃ before f after e, frames = before ++ f :: after ∧ (∀ g ∈ before, g.Readable) ∧
        f.tag = .error e ∧ e ≠ .skip := by
  induction frames with
  | nil => exact Or.inl (by simp)
  | cons f rest ih =>
    by_cases readable : f.Readable
    · rcases ih with all | ⟨before, g, after, e, rfl, early, refused, fatal⟩
      · exact Or.inl (List.forall_mem_cons.mpr ⟨readable, all⟩)
      · exact Or.inr ⟨f :: before, g, after, e, rfl, List.forall_mem_cons.mpr ⟨readable, early⟩,
          refused, fatal⟩
    · unfold Readable at readable
      cases meaning : f.tag with
      | ok t => exact absurd (Or.inl ⟨t, meaning⟩) readable
      | error e =>
        refine Or.inr ⟨[], f, rest, e, rfl, by simp, meaning, ?_⟩
        rintro rfl
        exact readable (Or.inr meaning)

end Frame

namespace Report

variable {last : Except ParseError (List Tag)} {f : Frame}

theorem ofFrames_keep {t : Tag} (h : f.tag = .ok t) (rest : List Frame) :
    ofFrames last (f :: rest) = keep t (ofFrames last rest) := by
  rw [ofFrames, h]

theorem ofFrames_skip (h : f.tag = .error .skip) (rest : List Frame) :
    ofFrames last (f :: rest) =
      after [.skipped f.code f.payload.length] (ofFrames last rest) := by
  rw [ofFrames, h]

theorem ofFrames_refuse {e : ParseError} (h : f.tag = .error e) (fatal : e ≠ .skip)
    (rest : List Frame) : ofFrames last (f :: rest) = ⟨[], .error e⟩ := by
  rw [ofFrames, h]
  cases e with
  | skip => exact absurd rfl fatal
  | _ => rfl

/-- Fields that are not refused add their notes and their tags to those of the fields behind. -/
theorem ofFrames_append {before : List Frame}
    (readable : ∀ f ∈ before, f.Readable) (behind : List Frame) :
    ofFrames last (before ++ behind) =
      ⟨before.flatMap Frame.notes ++ (ofFrames last behind).notes,
        (ofFrames last behind).result.map (Frame.kept before ++ ·)⟩ := by
  induction before with
  | nil => cases result : (ofFrames last behind).result <;> simp [Except.map, ← result, Frame.kept]
  | cons f rest ih =>
    obtain ⟨first, later⟩ := List.forall_mem_cons.mp readable
    rw [List.cons_append]
    rcases first with ⟨t, kept⟩ | skipped
    · rw [ofFrames_keep kept, ih later, keep, Frame.kept_cons_of_ok kept, List.flatMap_cons,
        Frame.notes, kept, List.append_assoc]
      cases (ofFrames last behind).result <;> rfl
    · rw [ofFrames_skip skipped, ih later, after, Frame.kept_cons_of_error skipped,
        List.flatMap_cons, Frame.notes, skipped, List.append_assoc]

theorem ofFrames_of_readable {frames : List Frame} (readable : ∀ f ∈ frames, f.Readable) :
    ofFrames last frames = ⟨frames.flatMap Frame.notes, last.map (Frame.kept frames ++ ·)⟩ := by
  have report : ofFrames last (frames ++ []) = _ := ofFrames_append readable []
  rwa [List.append_nil, ofFrames, List.append_nil] at report

theorem result_ofFrames_eq_ok_iff {frames : List Frame} {tags : List Tag} :
    (ofFrames last frames).result = .ok tags ↔
      (∀ f ∈ frames, f.Readable) ∧ ∃ tail, last = .ok tail ∧ tags = Frame.kept frames ++ tail := by
  rcases Frame.readable_or_refused frames with
    readable | ⟨before, f, after, e, rfl, early, refused, fatal⟩
  · rw [ofFrames_of_readable readable, iff_true_intro readable, true_and]
    cases last <;> simp [Except.map, eq_comm]
  · have unreadable : ¬ f.Readable := by
      rintro (⟨t, kept⟩ | skipped)
      · exact absurd (refused.symm.trans kept) (by simp)
      · exact fatal (Except.error.inj (refused.symm.trans skipped))
    rw [ofFrames_append early, ofFrames_refuse refused fatal]
    have halted : ¬ ∀ g ∈ before ++ f :: after, g.Readable := fun all => unreadable (all f (by simp))
    rw [iff_false_intro halted, false_and]
    simp [Except.map]

/-- A stream is read if and only if it is a concatenation of framed fields of which none is
refused; the tags are those of the fields that are kept. -/
theorem result_ofStream_eq_ok_iff {stream : List Symbol} {tags : List Tag} :
    (ofStream stream).result = .ok tags ↔
      ∃ frames, stream = frames.flatMap Frame.symbols ∧ (∀ f ∈ frames, f.Readable) ∧
        tags = Frame.kept frames := by
  rw [ofStream, result_ofFrames_eq_ok_iff]
  constructor
  · rintro ⟨readable, tail, ends, rfl⟩
    split at ends
    · rename_i nothing
      obtain rfl := Except.ok.inj ends
      have whole := Frame.symbols_split stream
      rw [nothing, List.append_nil] at whole
      exact ⟨_, whole.symm, readable, List.append_nil _⟩
    · exact absurd ends (by simp)
  · rintro ⟨frames, rfl, readable, rfl⟩
    have nothing : Frame.take? [] = none := rfl
    have cut := Frame.split_flatMap frames nothing
    rw [List.append_nil] at cut
    rw [cut]
    exact ⟨readable, [], if_pos rfl, (List.append_nil _).symm⟩

end Report
end LightningInvoice
