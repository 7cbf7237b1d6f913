import LightningInvoice.Proofs.Guarded.Head
import LightningInvoice.Proofs.Guarded.Payload
import LightningInvoice.Proofs.Radix.Overflow
import LightningInvoice.Proofs.Request.Reading

/-!
Requests, read by steps that may have no value: the separator is looked for by its position, and
head, symbols, timestamp, fields and signature are cut out at positions. The timestamp and the
length of a field are taken for granted to fit in 64 bits: if one did not, there would be no value.
There is one for every request, and it is what `Request.decodeUnder` gives.
-/
namespace LightningInvoice.Guarded

/-- What a character of the first 128 stands for, and -1 for the characters that are no symbol. -/
def values : List Int :=
  [-1, -1, -1, -1, -1, -1, -1, -1, -1, -1, -1, -1, -1, -1, -1, -1,
   -1, -1, -1, -1, -1, -1, -1, -1, -1, -1, -1, -1, -1, -1, -1, -1,
   -1, -1, -1, -1, -1, -1, -1, -1, -1, -1, -1, -1, -1, -1, -1, -1,
   15, -1, 10, 17, 21, 20, 26, 30, 7, 5, -1, -1, -1, -1, -1, -1,
   -1, 29, -1, 24, 13, 25, 9, 8, 23, -1, 18, 22, 31, 27, 19, -1,
   1, 0, 3, 16, 11, 28, 12, 14, 6, 4, 2, -1, -1, -1, -1, -1,
   -1, 29, -1, 24, 13, 25, 9, 8, 23, -1, 18, 22, 31, 27, 19, -1,
   1, 0, 3, 16, 11, 28, 12, 14, 6, 4, 2, -1, -1, -1, -1, -1]

def symbol (c : Char) : Option (Option Symbol) :=
  if c.toNat ≤ 127 then do
    let value ← values[c.toNat]?
    return if 0 ≤ value ∧ value < 32 then some (BitVec.ofInt 5 value) else none
  else some none

theorem symbol_of_ascii :
    ∀ n < 128, symbol (Char.ofNat n) = some (Symbol.ofChar? (Char.ofNat n)) := by
  decide +kernel

theorem isAscii_alphabet : Envelope.isAscii Symbol.alphabet = true := rfl

theorem symbol_eq (c : Char) : symbol c = some (Symbol.ofChar? c) := by
  by_cases ascii : c.toNat ≤ 127
  · have value := symbol_of_ascii c.toNat (by omega)
    rwa [Char.ofNat_toNat] at value
  · have lower : c.toLower = c := toLower_of_not_upper fun upper => by
      have : c.toNat ≤ 90 := UInt32.le_iff_toNat_le.mp upper.2
      omega
    have strange : c ∉ Symbol.alphabet := fun member => by
      have := of_decide_eq_true (List.all_eq_true.mp isAscii_alphabet c member)
      omega
    rw [symbol, if_neg ascii, Symbol.ofChar?, lower, List.idxOf?_eq_none_iff.mpr strange,
      Option.map_none]

def symbols : List Char → Option (Except Char (List Symbol))
  | [] => some (.ok [])
  | c :: rest => do
    match ← symbol c with
    | none => return .error c
    | some s => return (← symbols rest).map (s :: ·)

theorem symbols_eq (characters : List Char) :
    symbols characters = some (Symbol.ofText characters) := by
  induction characters with
  | nil => rfl
  | cons c rest ih =>
    rw [symbols, symbol_eq, Symbol.ofText, ih, Option.bind_eq_bind, Option.bind_some]
    cases Symbol.ofChar? c <;> rfl

def character (s : Symbol) : Option Char := Symbol.alphabet[s.toNat % 32]?

theorem character_eq (s : Symbol) : character s = some s.toChar := by
  revert s; decide

/-- Cuts the first field off a stream that is not empty: the whole field, the length it declares for
its payload, and the rest. -/
def field (stream : List Symbol) : Option (Except ParseError (List Symbol × Nat × List Symbol)) :=
  if stream.length < 3 then some (.error (.malformed .fieldsCutShort))
  else do
    let length ← Symbol.number? (← slice? 1 3 stream)
    let stop := 3 + length.toNat
    if stream.length < stop then return .error (.malformed .fieldsCutShort)
    else return .ok (← slice? 0 stop stream, length.toNat, ← drop? stop stream)

theorem length_lt_of_field {stream f rest : List Symbol} {length : Nat}
    (h : field stream = some (.ok (f, length, rest))) : rest.length < stream.length := by
  unfold field at h
  split at h
  · cases h
  · simp only [Option.bind_eq_bind, Option.bind_eq_some_iff] at h
    obtain ⟨declaration, -, n, -, h⟩ := h
    split at h
    · cases h
    · simp only [Option.bind_eq_some_iff] at h
      obtain ⟨_, -, behind, taken, h⟩ := h
      simp only [Option.pure_def, Option.some.injEq, Except.ok.injEq, Prod.mk.injEq] at h
      obtain ⟨-, -, rfl⟩ := h
      have := length_of_drop? taken
      omega

theorem number?_pair (upper lower : Symbol) :
    ∃ n, Symbol.number? [upper, lower] = some n ∧ n.toNat = Frame.declared upper lower := by
  have small := Frame.declared_lt upper lower
  have fits : Frame.declared upper lower < 2 ^ 64 := by omega
  exact ⟨_, Frame.number?_pair upper lower, UInt64.toNat_ofNat_of_lt' fits⟩

theorem field_append (f : Frame) (rest : List Symbol) :
    field (f.symbols ++ rest) = some (.ok (f.symbols, f.payload.length, rest)) := by
  obtain ⟨n, number, value⟩ := number?_pair (BitVec.ofNat 5 (f.payload.length / 32))
    (BitVec.ofNat 5 (f.payload.length % 32))
  rw [Frame.declared_length] at value
  have length : f.symbols.length = 3 + f.payload.length := by
    rw [Frame.symbols, List.length_append]
    rfl
  have long : 3 + f.payload.length ≤ (f.symbols ++ rest).length := by
    rw [List.length_append]
    omega
  have declaration : slice? 1 3 (f.symbols ++ rest) =
      some (Frame.lengthSymbols f.payload.length) := slice?_of_le (by decide) (by omega)
  rw [field, if_neg (by omega), declaration, Option.bind_eq_bind, Option.bind_some,
    Frame.lengthSymbols, number, Option.bind_eq_bind, Option.bind_some]
  dsimp only
  rw [value, if_neg (by omega), slice?_append length, drop?_append length]
  rfl

theorem field_of_take?_eq_none {stream : List Symbol} (spent : Frame.take? stream = none) :
    field stream = some (.error (.malformed .fieldsCutShort)) := by
  match stream with
  | [] | [_] | [_, _] => rfl
  | code :: upper :: lower :: rest =>
    obtain ⟨n, number, value⟩ := number?_pair upper lower
    have short : (code :: upper :: lower :: rest).length < 3 + n.toNat := by
      by_contra fits
      rw [List.length_cons, List.length_cons, List.length_cons] at fits
      rw [Frame.take?, if_pos (by omega)] at spent
      cases spent
    have declaration : slice? 1 3 (code :: upper :: lower :: rest) = some [upper, lower] :=
      slice?_of_le (by decide) (by simp)
    rw [field, if_neg (by simp), declaration, Option.bind_eq_bind, Option.bind_some, number]
    exact if_pos short

def fields (stream : List Symbol) : Option (Report (List Tag)) :=
  if stream = [] then some ⟨[], .ok []⟩
  else
    match _h : field stream with
    | none => none
    | some (.error e) => some ⟨[], .error e⟩
    | some (.ok (f, length, rest)) => do
      match ← tag f with
      | .ok t => return .keep t (← fields rest)
      | .error .skip =>
        let code ← f[0]?
        return .after [.skipped code length] (← fields rest)
      | .error e => return ⟨[], .error e⟩
termination_by stream.length
decreasing_by all_goals exact length_lt_of_field _h

theorem fields_eq (stream : List Symbol) : fields stream = some (Report.ofStream stream) := by
  unfold Report.ofStream
  -- The stream is cut the way `split` cuts it; what is behind the first field is the induction.
  fun_induction Frame.split stream with
  | case1 stream spent =>
    rw [fields]
    split
    · rename_i empty
      rfl
    · rename_i more
      rw [field_of_take?_eq_none spent]
      rfl
  | case2 stream f rest taken ih =>
    obtain rfl := Frame.symbols_take? taken
    have next := field_append f rest
    rw [fields, if_neg (by simp [Frame.symbols])]
    split
    · rename_i none
      cases next.symm.trans none
    · rename_i e refused
      cases next.symm.trans refused
    · rename_i symbols length behind found
      cases next.symm.trans found
      rw [tag_eq, Tag.ofField_symbols, Option.bind_eq_bind, Option.bind_some, ih, Report.ofFrames]
      cases f.tag with
      | ok t => rfl
      | error e => cases e <;> rfl

def ofParts (head : List Char) (data : List Symbol) : Option (Except ParseError Envelope) :=
  if data.length < Checksum.width then some (.error (.malformed .shortData))
  else if !Envelope.isAscii head || !Checksum.verify head data then some (.error .wrongChecksum)
  else do
    let (body, checksum) ← splitAt? (← sub? data.length Checksum.width) data
    return .ok ⟨head, body, checksum⟩

theorem ofParts_eq (head : List Char) (data : List Symbol) :
    ofParts head data = some (Envelope.ofParts head data) := by
  unfold ofParts Envelope.ofParts
  by_cases short : data.length < Checksum.width
  · rw [if_pos short, if_pos short]
  · rw [if_neg short, if_neg short, sub?_of_le (Nat.le_of_not_lt short), Option.bind_eq_bind,
      Option.bind_some, splitAt?_of_le (Nat.sub_le _ _)]
    cases Envelope.isAscii head <;> cases Checksum.verify head data <;> rfl

def envelope (text : List Char) : Option (Except ParseError Envelope) :=
  match lastPosition? '1' text with
  | none => some (.error (.malformed .missingSeparator))
  | some separator => do
    let (head, _) ← cut? separator text
    let (_, characters) ← cut? (separator + 1) text
    match ← symbols characters with
    | .error c => return .error (.invalidCharacter c)
    | .ok data => ofParts head data

theorem envelope_eq (text : List Char) : envelope text = some (Envelope.read text) := by
  unfold envelope Envelope.read
  cases split : Envelope.splitLast '1' text with
  | none =>
    rw [lastPosition?_eq_none (Envelope.splitLast_eq_none_iff.mp split)]
  | some parts =>
    obtain ⟨head, characters⟩ := parts
    obtain ⟨rfl, absent⟩ := Envelope.eq_of_splitLast split
    have separated : (Utf8.encode head).length + 1 = (Utf8.encode (head ++ ['1'])).length := by
      rw [Utf8.encode, Utf8.encode, List.flatMap_append, List.length_append]
      rfl
    have behind := cut?_append (head ++ ['1']) characters
    rw [List.append_assoc, List.singleton_append, ← separated] at behind
    rw [lastPosition?_append absent]
    simp only [cut?_append, behind, symbols_eq, ofParts_eq, Option.bind_eq_bind, Option.bind_some]
    cases Symbol.ofText characters <;> rfl

def interpret (human : HumanReadable) (envelope : Envelope) : Option (Report Invoice) :=
  if envelope.body.length < Request.timestampWidth + Signature.width then
    some ⟨[], .error (.malformed .shortData)⟩
  else do
    let stop ← sub? envelope.body.length Signature.width
    let (signed, signatureSymbols) ← splitAt? stop envelope.body
    let timestamp ← Symbol.number? (← slice? 0 Request.timestampWidth signed)
    let report ← fields (← drop? Request.timestampWidth signed)
    match report.result with
    | .error e => return ⟨report.notes, .error e⟩
    | .ok tags =>
      match ← signature signatureSymbols with
      | .error e => return ⟨report.notes, .error e⟩
      | .ok signature =>
        let bytes ← pack .padded signed
        let checksum ← envelope.checksum.mapM character
        return ⟨report.notes ++ [.finished human.network tags.length], .ok
          { human := human
            timestamp := timestamp
            tags := tags
            signature := signature
            signingData := Utf8.encode envelope.head ++ bytes
            checksum := String.ofList checksum }⟩

theorem interpret_eq (human : HumanReadable) (envelope : Envelope) :
    interpret human envelope = some (Request.interpret human envelope) := by
  obtain ⟨head, body, checksum⟩ := envelope
  by_cases short : body.length < Request.timestampWidth + Signature.width
  · rw [Request.interpret_short short]
    exact if_pos short
  · obtain ⟨timestamp, stream, symbols, rfl, seven, width⟩ := Request.exists_parts short
    have place : sub? (timestamp ++ stream ++ symbols).length Signature.width =
        some (timestamp ++ stream).length := by
      rw [List.length_append, width, sub?_of_le (Nat.le_add_left _ _), Nat.add_sub_cancel]
    have fits : timestamp.length ≤ 12 := by
      rw [seven]
      decide
    have characters : checksum.mapM character = some (Symbol.text checksum) :=
      mapM_eq_some fun s _ => character_eq s
    rw [Request.interpret_parts human head stream checksum seven width]
    unfold interpret
    dsimp only
    rw [if_neg short, place, Option.bind_eq_bind, Option.bind_some, splitAt?_append rfl,
      Option.bind_eq_bind, Option.bind_some]
    simp only [slice?_append seven, drop?_append seven, Symbol.number?_of_length fits, fields_eq,
      signature_eq, pack_eq, characters, Option.bind_eq_bind, Option.bind_some]
    cases (Report.ofStream stream).result with
    | error e => rfl
    | ok tags => cases Signature.ofSymbols symbols <;> rfl

/-- Reads a request under a policy, and reports what was noted on the way. -/
def decodeUnder (policy : Policy) (request : String) : Option (Report Invoice) :=
  match policy.violation? request.toList with
  | some e => some ⟨[], .error e⟩
  | none => do
    match ← envelope (request.toList.map Char.toLower) with
    | .error e => return ⟨[], .error e⟩
    | .ok envelope =>
      match ← human envelope.head with
      | .error e => return ⟨[], .error e⟩
      | .ok human => interpret human envelope

/-- No step of reading a request leaves the data, whatever the request and the policy. -/
theorem decodeUnder_eq_some (policy : Policy) (request : String) :
    decodeUnder policy request = some (Request.decodeUnder policy request) := by
  unfold decodeUnder Request.decodeUnder
  cases policy.violation? request.toList with
  | some e => rfl
  | none =>
    simp only [envelope_eq, Option.bind_eq_bind, Option.bind_some]
    cases Envelope.read (request.toList.map Char.toLower) with
    | error e => rfl
    | ok envelope =>
      simp only [human_eq, Option.bind_some]
      cases HumanReadable.parse envelope.head with
      | error e => rfl
      | ok human => exact interpret_eq human envelope

end LightningInvoice.Guarded
