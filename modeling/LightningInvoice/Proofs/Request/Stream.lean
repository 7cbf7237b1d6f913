import LightningInvoice.Proofs.Tag.Outcome
import LightningInvoice.Proofs.Request.Fields

/-!
What comes of any stream of symbols. It is a concatenation of framed fields and a rest that begins
no whole field; the first field that is refused gives its error, else a rest that is not empty gives
the error for fields that are cut short, else the stream is read. Behind fields that are read,
reading goes on as if nothing had stood before.
-/
namespace LightningInvoice
namespace Frame

/-- Symbols that begin a field and end before it does. -/
def CutShort (rest : List Symbol) : Prop :=
  rest ≠ [] ∧ (rest.length < 3 ∨ ∃ code upper lower payload,
    rest = code :: upper :: lower :: payload ∧
      rest.length < 3 + (32 * upper.toNat + lower.toNat))

theorem take?_eq_none_iff {rest : List Symbol} :
    take? rest = none ↔ rest = [] ∨ CutShort rest := by
  match rest with
  | [] => simp [take?]
  | [_] | [_, _] => simp [take?, CutShort]
  | code :: upper :: lower :: payload =>
    have declared_eq : declared upper lower = 32 * upper.toNat + lower.toNat := by
      rw [declared, Nat.mul_comm]
    simp only [take?, declared_eq, CutShort]
    constructor
    · intro spent
      split at spent
      · simp at spent
      · refine Or.inr ⟨by simp, Or.inr ⟨_, _, _, _, rfl, ?_⟩⟩
        simp only [List.length_cons]
        omega
    · rintro (empty | ⟨_, short | ⟨_, _, _, _, same, short⟩⟩)
      · simp at empty
      · simp only [List.length_cons] at short
        omega
      · simp only [List.cons.injEq] at same
        obtain ⟨rfl, rfl, rfl, rfl⟩ := same
        simp only [List.length_cons] at short
        rw [if_neg (by omega)]

theorem split_append (frames : List Frame) (behind : List Symbol) :
    split (frames.flatMap symbols ++ behind) = (frames ++ (split behind).1, (split behind).2) := by
  conv => lhs; rw [← symbols_split behind]
  rw [← List.append_assoc, ← List.flatMap_append]
  exact split_flatMap _ (take?_split behind)

theorem tag_ne_fieldsCutShort (f : Frame) : f.tag ≠ .error (.malformed .fieldsCutShort) := by
  intro refused
  obtain same | ⟨_, same⟩ | same := Tag.error_of_ofPayload refused
  all_goals simp at same

end Frame

namespace Report

theorem ofStream_append {before : List Frame} (readable : ∀ f ∈ before, f.Readable)
    (behind : List Symbol) :
    ofStream (before.flatMap Frame.symbols ++ behind) =
      ⟨before.flatMap Frame.notes ++ (ofStream behind).notes,
        (ofStream behind).result.map (Frame.kept before ++ ·)⟩ := by
  rw [ofStream, Frame.split_append, ofFrames_append readable]
  rfl

theorem result_ofStream_refused {before : List Frame} {f : Frame} {e : ParseError}
    (readable : ∀ g ∈ before, g.Readable) (refused : f.tag = .error e) (fatal : e ≠ .skip)
    (after : List Symbol) :
    (ofStream (before.flatMap Frame.symbols ++ f.symbols ++ after)).result = .error e := by
  have first : ofStream (f.symbols ++ after) = ⟨[], .error e⟩ := by
    have one := Frame.split_append [f] after
    rw [List.flatMap_singleton, List.singleton_append] at one
    rw [ofStream, one]
    exact ofFrames_refuse refused fatal _
  rw [List.append_assoc, ofStream_append readable, first]
  rfl

theorem result_ofStream_cutShort {before : List Frame} {rest : List Symbol}
    (readable : ∀ f ∈ before, f.Readable) (short : Frame.CutShort rest) :
    (ofStream (before.flatMap Frame.symbols ++ rest)).result =
      .error (.malformed .fieldsCutShort) := by
  have spent := Frame.take?_eq_none_iff.mpr (Or.inr short)
  have alone : ofStream rest = ⟨[], .error (.malformed .fieldsCutShort)⟩ := by
    have none := Frame.split_flatMap [] spent
    rw [List.flatMap_nil, List.nil_append] at none
    rw [ofStream, none, if_neg short.1]
    rfl
  rw [ofStream_append readable, alone]
  rfl

/-- A stream is read, or has a first field that is refused, or ends in a field that is cut short. -/
theorem cases_of_stream (stream : List Symbol) :
    (∃ fields : List Frame, stream = fields.flatMap Frame.symbols ∧ ∀ f ∈ fields, f.Readable) ∨
    (∃ (before : List Frame) (f : Frame) (after : List Symbol) (e : ParseError),
      stream = before.flatMap Frame.symbols ++ f.symbols ++ after ∧
        (∀ g ∈ before, g.Readable) ∧ f.tag = .error e ∧ e ≠ .skip) ∨
    ∃ (fields : List Frame) (rest : List Symbol), stream = fields.flatMap Frame.symbols ++ rest ∧
      (∀ f ∈ fields, f.Readable) ∧ Frame.CutShort rest := by
  have whole := Frame.symbols_split stream
  rcases Frame.readable_or_refused (Frame.split stream).1 with
    readable | ⟨before, f, after, e, split, early, refused, fatal⟩
  · rcases Frame.take?_eq_none_iff.mp (Frame.take?_split stream) with empty | short
    · rw [empty, List.append_nil] at whole
      exact Or.inl ⟨_, whole.symm, readable⟩
    · exact Or.inr (Or.inr ⟨_, _, whole.symm, readable, short⟩)
  · refine Or.inr (Or.inl ⟨before, f, after.flatMap Frame.symbols ++ (Frame.split stream).2, e, ?_,
      early, refused, fatal⟩)
    rw [split, List.flatMap_append, List.flatMap_cons] at whole
    simpa only [List.append_assoc] using whole.symm

theorem result_ofStream_whole {fields : List Frame} (readable : ∀ f ∈ fields, f.Readable) :
    (ofStream (fields.flatMap Frame.symbols)).result = .ok (Frame.kept fields) :=
  result_ofStream_eq_ok_iff.mpr ⟨fields, rfl, readable, rfl⟩

theorem result_ofStream_eq_error_iff {stream : List Symbol} {e : ParseError} :
    (ofStream stream).result = .error e ↔
      (∃ (before : List Frame) (f : Frame) (after : List Symbol),
        stream = before.flatMap Frame.symbols ++ f.symbols ++ after ∧
          (∀ g ∈ before, g.Readable) ∧ f.tag = .error e ∧ e ≠ .skip) ∨
      (e = .malformed .fieldsCutShort ∧ ∃ (fields : List Frame) (rest : List Symbol),
        stream = fields.flatMap Frame.symbols ++ rest ∧ (∀ f ∈ fields, f.Readable) ∧
          Frame.CutShort rest) := by
  constructor
  · intro failed
    rcases cases_of_stream stream with ⟨fields, rfl, readable⟩ |
      ⟨before, f, after, d, rfl, readable, refused, fatal⟩ | ⟨fields, rest, rfl, readable, short⟩
    · rw [result_ofStream_whole readable] at failed
      simp at failed
    · rw [result_ofStream_refused readable refused fatal] at failed
      obtain rfl := Except.error.inj failed
      exact Or.inl ⟨before, f, after, rfl, readable, refused, fatal⟩
    · rw [result_ofStream_cutShort readable short] at failed
      obtain rfl := Except.error.inj failed
      exact Or.inr ⟨rfl, fields, rest, rfl, readable, short⟩
  · rintro (⟨before, f, after, rfl, readable, refused, fatal⟩ |
      ⟨rfl, fields, rest, rfl, readable, short⟩)
    · exact result_ofStream_refused readable refused fatal after
    · exact result_ofStream_cutShort readable short

/-- Reading a stream, told by its symbols. It is read if and only if it is a concatenation of framed
fields of which none is refused; it is refused with the error of a field if and only if that is the
first one refused, whatever stands behind it, and for fields that are cut short if and only if such
fields are followed by a part of one. Symbols behind a stream that is read are read on their own. -/
theorem result_ofStream_iff (stream : List Symbol) :
    (∀ field, (∃ f : Frame, field = f.symbols) ↔ ∃ code upper lower payload,
      field = code :: upper :: lower :: payload ∧
        payload.length = 32 * upper.toNat + lower.toNat) ∧
    (∀ tags, (ofStream stream).result = .ok tags ↔
      ∃ fields : List Frame, stream = fields.flatMap Frame.symbols ∧
        (∀ f ∈ fields, (∃ t, Tag.ofField f.symbols = .ok t) ∨
          Tag.ofField f.symbols = .error .skip) ∧
        tags = fields.filterMap fun f => (Tag.ofField f.symbols).toOption) ∧
    (∀ e, e ≠ .malformed .fieldsCutShort → ((ofStream stream).result = .error e ↔
      ∃ (before : List Frame) (f : Frame) (after : List Symbol),
        stream = before.flatMap Frame.symbols ++ f.symbols ++ after ∧
          (∀ g ∈ before, g.Readable) ∧ Tag.ofField f.symbols = .error e ∧ e ≠ .skip)) ∧
    (∀ f : Frame, Tag.ofField f.symbols ≠ .error (.malformed .fieldsCutShort)) ∧
    ((ofStream stream).result = .error (.malformed .fieldsCutShort) ↔
      ∃ (fields : List Frame) (rest : List Symbol), stream = fields.flatMap Frame.symbols ++ rest ∧
        (∀ f ∈ fields, f.Readable) ∧ Frame.CutShort rest) ∧
    ∀ tags, (ofStream stream).result = .ok tags → ∀ more,
      (ofStream (stream ++ more)).result = (ofStream more).result.map (tags ++ ·) := by
  refine ⟨fun field => Frame.exists_eq_symbols_iff, fun tags => result_ofStream_eq_ok_iff, ?_,
    Frame.tag_ne_fieldsCutShort, ?_, ?_⟩
  · intro e other
    rw [result_ofStream_eq_error_iff, iff_false_intro other, false_and, or_false]
    rfl
  · rw [result_ofStream_eq_error_iff]
    constructor
    · rintro (⟨_, f, _, _, _, refused, _⟩ | ⟨_, short⟩)
      · exact absurd refused f.tag_ne_fieldsCutShort
      · exact short
    · exact fun short => Or.inr ⟨rfl, short⟩
  · intro tags read more
    obtain ⟨fields, rfl, readable, rfl⟩ := result_ofStream_eq_ok_iff.mp read
    rw [ofStream_append readable]

/-- A field to read and one to pass over; behind them an unknown field, a text that is not UTF-8 and
a symbol more, or two symbols. -/
theorem result_ofStream_samples :
    (ofStream [6, 0, 2, 1, 28, 1, 0, 1, 5]).result = .ok [.expiry 60] ∧
    (ofStream [6, 0, 2, 1, 28, 1, 0, 1, 5, 2, 0, 0]).result = .ok [.expiry 60, .unknown ⟨2, []⟩] ∧
    (ofStream [6, 0, 2, 1, 28, 1, 0, 1, 5, 13, 0, 2, 31, 31, 7]).result =
      .error (.malformed (.invalidDescription ⟨0, some 1⟩)) ∧
    (ofStream [6, 0, 2, 1, 28, 1, 0, 1, 5, 13, 31]).result =
      .error (.malformed .fieldsCutShort) := by
  let fields : List Frame := [⟨6, [1, 28], by decide⟩, ⟨1, [5], by decide⟩]
  let more : List Frame := [⟨2, [], by decide⟩]
  have readable : ∀ f ∈ fields, f.Readable := by decide
  have readableMore : ∀ f ∈ more, f.Readable := by decide
  have text : Tag.ofField (Frame.symbols ⟨13, [31, 31], by decide⟩) =
      .error (.malformed (.invalidDescription ⟨0, some 1⟩)) := by decide +kernel
  have short : Frame.CutShort [13, 31] := ⟨by simp, Or.inl (by decide)⟩
  obtain ⟨_, whole, _, _, _, behind⟩ := result_ofStream_iff [6, 0, 2, 1, 28, 1, 0, 1, 5]
  obtain ⟨_, alone, _⟩ := result_ofStream_iff [2, 0, 0]
  obtain ⟨_, _, refused, _⟩ :=
    result_ofStream_iff [6, 0, 2, 1, 28, 1, 0, 1, 5, 13, 0, 2, 31, 31, 7]
  obtain ⟨_, _, _, _, cut, _⟩ := result_ofStream_iff [6, 0, 2, 1, 28, 1, 0, 1, 5, 13, 31]
  have read := (whole [.expiry 60]).mpr ⟨fields, rfl, readable, rfl⟩
  refine ⟨read, ?_, ?_, ?_⟩
  · have later := (alone [.unknown ⟨2, []⟩]).mpr ⟨more, rfl, readableMore, rfl⟩
    exact (behind _ read [2, 0, 0]).trans (congrArg (Except.map _) later)
  · exact (refused _ (by simp)).mpr ⟨fields, _, [7], rfl, readable, text, by simp⟩
  · exact cut.mpr ⟨fields, _, rfl, readable, short⟩

end Report
end LightningInvoice
