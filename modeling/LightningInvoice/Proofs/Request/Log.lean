import LightningInvoice.Proofs.Request.Decomposition
import Mathlib.Data.List.Basic

/-!
What the log says of reading a request. Each field has its line or none, and the log is the lines of
the fields up to the first failure, with a summary behind them if there was no failure.
-/
namespace LightningInvoice

/-- The line of a field that is passed over, and of one that is kept without a meaning. -/
def Frame.lines (f : Frame) : List Log.Line :=
  match f.symbols with
  | code :: upper :: lower :: _ =>
    match Tag.ofField f.symbols with
    | .error .skip =>
      [⟨.trace, "Skipping tagged field '" ++ code.toChar.toString ++ "' with data length " ++
        toString (Frame.declared upper lower)⟩]
    | .ok (.unknown field) =>
      [⟨.debug, "Keeping tagged field with unknown tag '" ++ field.code.toChar.toString ++
        "' and data length " ++ toString field.payload.length ++ " uninterpreted"⟩]
    | _ => []
  | _ => []

/-- The letters of a network as the log has them. -/
def Network.spelled : Network → String
  | .bitcoin => "lnbc"
  | .testnet => "lntb"
  | .regtest => "lnbcrt"
  | .simnet => "lnsb"
  | .signet => "lntbs"

/-- The line with which a request that is read ends. -/
def Invoice.summary (inv : Invoice) : Log.Line :=
  ⟨.trace, "Decoded " ++ inv.human.network.spelled ++ " payment request with " ++
    toString inv.tags.length ++ " tagged fields"⟩

theorem Network.spelled_eq_name (n : Network) : n.spelled = n.name := by
  cases n <;> rfl

theorem Frame.lines_eq_notes {f : Frame} (readable : f.Readable) :
    f.lines = f.notes.map Note.line := by
  have declared := f.declared_length
  unfold lines notes
  simp only [symbols, lengthSymbols, List.cons_append, List.nil_append, declared]
  have field : Tag.ofField (f.code :: BitVec.ofNat 5 (f.payload.length / 32) ::
    BitVec.ofNat 5 (f.payload.length % 32) :: f.payload) = f.tag := rfl
  rw [field]
  rcases readable with ⟨t, kept⟩ | skipped
  · rw [kept]
    cases t <;> rfl
  · rw [skipped]
    rfl

/-- Fields that are not refused are in the tags or have a line of level trace, one or the other; the
unknown ones have a line of level debug. -/
theorem Frame.length_eq_of_readable {fields : List Frame} (readable : ∀ f ∈ fields, f.Readable) :
    fields.length = (kept fields).length +
        (fields.flatMap Frame.lines).countP (·.level = .trace) ∧
      ((kept fields).filterMap Tag.unknown?).length =
        (fields.flatMap Frame.lines).countP (·.level = .debug) := by
  induction fields with
  | nil => exact ⟨rfl, rfl⟩
  | cons f rest ih =>
    obtain ⟨first, later⟩ := List.forall_mem_cons.mp readable
    obtain ⟨traces, debugs⟩ := ih later
    rw [List.flatMap_cons, List.countP_append, List.countP_append, lines_eq_notes first, notes,
      List.length_cons]
    rcases first with ⟨t, read⟩ | skipped
    · rw [kept_cons_of_ok read, read]
      cases t <;> simp [Tag.notes, Note.line, Tag.unknown?, List.filterMap_cons] <;> omega
    · rw [kept_cons_of_error skipped, skipped]
      simp [Note.line]
      omega

namespace Request

/-- The request is in order up to its fields: these are in `stream`, between the timestamp and the
signature. -/
structure Opens (policy : Policy) (request : String) (human : HumanReadable) (head : List Char)
    (timestamp stream signature : List Symbol) : Prop where
  demands : policy.violation? request.toList = none
  text_eq : lowered request = head ++ '1' :: Symbol.text (timestamp ++ stream ++ signature ++
    Checksum.create head (timestamp ++ stream ++ signature))
  human : HumanReadable.parse head = .ok human
  timestamp_length : timestamp.length = timestampWidth
  signature_length : signature.length = Signature.width

/-- How the reading ends once it has come to the fields, and what the log holds then. -/
inductive Ending (human : HumanReadable) (fields : List Frame) (rest signature : List Symbol) :
    Except ParseError Invoice → List Log.Line → Prop
  | field {before after : List Frame} {f : Frame} {e : ParseError}
      (split : fields = before ++ f :: after) (early : ∀ g ∈ before, g.Readable)
      (refused : Tag.ofField f.symbols = .error e) (fatal : e ≠ .skip) :
      Ending human fields rest signature (.error e) (before.flatMap Frame.lines)
  | framing (readable : ∀ f ∈ fields, f.Readable) (left : rest ≠ []) :
      Ending human fields rest signature (.error (.malformed .fieldsCutShort))
        (fields.flatMap Frame.lines)
  | flag {flag : UInt8} (readable : ∀ f ∈ fields, f.Readable) (whole : rest = [])
      (last : (pack .dropped signature)[64]? = some flag) (high : 3 < flag) :
      Ending human fields rest signature (.error (.malformed (.invalidRecoveryFlag flag)))
        (fields.flatMap Frame.lines)
  | finished {inv : Invoice} (readable : ∀ f ∈ fields, f.Readable) (whole : rest = [])
      (head : inv.human = human) (tags : inv.tags = Frame.kept fields)
      (valid : Signature.ofSymbols signature = .ok inv.signature)
      (passed : fields.length = inv.tags.length +
        (fields.flatMap Frame.lines).countP (·.level = .trace))
      (unknown : inv.unknownFields.length =
        (fields.flatMap Frame.lines).countP (·.level = .debug)) :
      Ending human fields rest signature (.ok inv) (fields.flatMap Frame.lines ++ [inv.summary])

theorem decodeUnder_of_opens {policy : Policy} {request : String} {human : HumanReadable}
    {head : List Char} {timestamp stream signature : List Symbol}
    (opens : Opens policy request human head timestamp stream signature) :
    decodeUnder policy request = interpret human ⟨head, timestamp ++ stream ++ signature,
      Checksum.create head (timestamp ++ stream ++ signature)⟩ := by
  have ascii := isAscii_of_plain (plain_of_parse opens.human)
  have envelope := Envelope.read_text ascii (timestamp ++ stream ++ signature)
  rw [← opens.text_eq, lowered] at envelope
  unfold decodeUnder
  rw [opens.demands]
  dsimp only
  rw [envelope]
  dsimp only
  rw [opens.human]

theorem decodeUnder_of_not_opens {policy : Policy} {request : String}
    (closed : ¬ ∃ human head timestamp stream signature,
      Opens policy request human head timestamp stream signature) :
    ∃ e, decodeUnder policy request = ⟨[], .error e⟩ := by
  unfold decodeUnder
  split
  · exact ⟨_, rfl⟩
  rename_i demands
  split
  · exact ⟨_, rfl⟩
  rename_i envelope read
  split
  · exact ⟨_, rfl⟩
  rename_i human parsed
  by_cases short : envelope.body.length < timestampWidth + Signature.width
  · exact ⟨_, interpret_short short⟩
  · obtain ⟨text, created⟩ := Envelope.read_eq_ok (map_toLower_map_toLower request.toList) read
    obtain ⟨timestamp, stream, signature, body, seven, width⟩ := exists_parts short
    rw [created, body] at text
    exact absurd ⟨human, envelope.head, timestamp, stream, signature, demands, text, parsed, seven,
      width⟩ closed

theorem map_line_flatMap_notes {frames : List Frame} (readable : ∀ f ∈ frames, f.Readable) :
    (frames.flatMap Frame.notes).map Note.line = frames.flatMap Frame.lines := by
  rw [List.map_flatMap]
  exact List.flatMap_congr fun f member => (Frame.lines_eq_notes (readable f member)).symm

theorem ending_of_opens {policy : Policy} {request : String} {human : HumanReadable}
    {head : List Char} {timestamp stream signature : List Symbol}
    (opens : Opens policy request human head timestamp stream signature) :
    ∃ fields rest, stream = fields.flatMap Frame.symbols ++ rest ∧ Frame.take? rest = none ∧
      Ending human fields rest signature (decodeUnder policy request).result
        ((decodeUnder policy request).notes.map Note.line) := by
  refine ⟨(Frame.split stream).1, (Frame.split stream).2, (Frame.symbols_split stream).symm,
    Frame.take?_split stream, ?_⟩
  rw [decodeUnder_of_opens opens,
    interpret_parts human head stream _ opens.timestamp_length opens.signature_length]
  rcases Frame.readable_or_refused (Frame.split stream).1 with
    readable | ⟨before, f, after, e, split, early, refused, fatal⟩
  · have lines := map_line_flatMap_notes readable
    rw [Report.ofStream, Report.ofFrames_of_readable readable]
    by_cases whole : (Frame.split stream).2 = []
    · rw [if_pos whole]
      cases valid : Signature.ofSymbols signature with
      | ok sig =>
        obtain ⟨passed, unknown⟩ := Frame.length_eq_of_readable readable
        dsimp only [Except.map]
        rw [List.append_nil, List.map_append, lines, List.map_singleton, Note.line,
          ← Network.spelled_eq_name]
        exact .finished readable whole rfl rfl valid passed unknown
      | error e =>
        obtain ⟨flag, last, high, rfl⟩ :=
          Signature.exists_flag_of_ofSymbols opens.signature_length valid
        dsimp only [Except.map]
        rw [lines]
        exact .flag readable whole last high
    · rw [if_neg whole]
      dsimp only [Except.map]
      rw [lines]
      exact .framing readable whole
  · rw [Report.ofStream, split, Report.ofFrames_append early,
      Report.ofFrames_refuse refused fatal]
    dsimp only [Except.map]
    rw [List.append_nil, map_line_flatMap_notes early]
    exact .field rfl early refused fatal

/-- The log of reading a request: nothing if the request is not in order up to its fields, else a
line for each field before the first failure that is passed over or kept without a meaning, and the
summary if and only if the request is read. -/
theorem log_decodeUnder (policy : Policy) (request : String) :
    ((¬ ∃ human head timestamp stream signature,
        Opens policy request human head timestamp stream signature) →
      (decodeUnder policy request).notes.map Note.line = [] ∧
        ∃ e, (decodeUnder policy request).result = .error e) ∧
    ∀ human head timestamp stream signature,
      Opens policy request human head timestamp stream signature →
        ∃ fields rest, stream = fields.flatMap Frame.symbols ++ rest ∧ Frame.take? rest = none ∧
          (∀ f ∈ fields, ∃ upper lower, f.symbols = f.code :: upper :: lower :: f.payload ∧
            Frame.declared upper lower = f.payload.length) ∧
          Ending human fields rest signature (decodeUnder policy request).result
            ((decodeUnder policy request).notes.map Note.line) := by
  constructor
  · intro closed
    obtain ⟨e, report⟩ := decodeUnder_of_not_opens closed
    rw [report]
    exact ⟨rfl, e, rfl⟩
  · intro human head timestamp stream signature opens
    obtain ⟨fields, rest, whole, spent, ending⟩ := ending_of_opens opens
    exact ⟨fields, rest, whole, spent, fun f _ => ⟨_, _, rfl, f.declared_length⟩, ending⟩

theorem opens_of_denotes {policy : Policy} {request : String} {l : Layout} {inv : Invoice}
    (demands : policy.violation? request.toList = none) (text : lowered request = l.text)
    (denotes : l.Denotes inv) :
    Opens policy request inv.human l.head l.timestamp (l.fields.flatMap Frame.symbols)
      l.signature where
  demands := demands
  text_eq := text
  human := denotes.human
  timestamp_length := denotes.seven
  signature_length := Signature.length_of_ofSymbols denotes.signature

/-- The log of the sample in capitals, read with demands, and of a request on another network. -/
theorem log_capitals :
    (decodeUnder (Policy.strict 200) capitals).notes.map Note.line =
      [⟨.debug, "Keeping tagged field with unknown tag 'z' and data length 2 uninterpreted"⟩,
        ⟨.trace, "Skipping tagged field 'p' with data length 1"⟩,
        ⟨.trace, "Decoded lnbc payment request with 2 tagged fields"⟩] ∧
    (decodeUnder {} (String.ofList (Layout.compose ['l', 'n', 't', 'b', 's', '7', 'n'] 60
        [⟨13, [], by decide⟩] ⟨.ofNumber 32 5, .ofNumber 32 6, 1⟩).text)).notes.map Note.line =
      [⟨.trace, "Decoded lntbs payment request with 1 tagged fields"⟩] := by
  -- The fields of a request are those of its layout, since the symbols frame in one way.
  have log {policy : Policy} {request : String} {l : Layout} {inv : Invoice}
      (demands : policy.violation? request.toList = none) (text : lowered request = l.text)
      (denotes : l.Denotes inv) :
      (decodeUnder policy request).notes.map Note.line =
        l.fields.flatMap Frame.lines ++ [inv.summary] := by
    have read : (decodeUnder policy request).result = .ok inv :=
      result_decodeUnder_eq_ok_iff.mpr ⟨demands, l, text, denotes⟩
    obtain ⟨fields, rest, stream, spent, _, ending⟩ :=
      (log_decodeUnder policy request).2 _ _ _ _ _ (opens_of_denotes demands text denotes)
    have nothing : Frame.take? [] = none := rfl
    rw [← List.append_nil (l.fields.flatMap Frame.symbols)] at stream
    obtain ⟨rfl, rfl⟩ := Frame.flatMap_symbols_injective nothing spent stream
    rw [read] at ending
    generalize (decodeUnder policy request).notes.map Note.line = log at ending ⊢
    cases ending
    rfl
  constructor
  · have demands : (Policy.strict 200).violation? capitals.toList = none := by
      rw [capitals, String.toList_ofList]
      decide +kernel
    rw [log demands lowered_capitals Layout.sample_denotes]
    decide +kernel
  · have human : HumanReadable.parse ['l', 'n', 't', 'b', 's', '7', 'n'] =
        .ok ⟨.signet, .msat 700⟩ := rfl
    have readable : ∀ f ∈ [(⟨13, [], by decide⟩ : Frame)], f.Readable := by decide +kernel
    have low : (⟨.ofNumber 32 5, .ofNumber 32 6, 1⟩ : Signature).recoveryFlag ≤ 3 := by decide
    have early : 60 < 2 ^ 35 := by decide
    have denotes := Layout.denotes_compose human early readable low
    rw [log (violation?_default _) (lowered_text denotes) denotes]
    decide +kernel

end Request
end LightningInvoice
