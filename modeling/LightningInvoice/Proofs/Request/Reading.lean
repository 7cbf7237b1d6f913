import LightningInvoice.Request.Layout
import LightningInvoice.Proofs.Checksum.Creation
import LightningInvoice.Proofs.Request.Fields
import LightningInvoice.Proofs.Request.Head
import LightningInvoice.Proofs.Request.Signature

/-!
A request is read if and only if its lower-case form is the text of a layout that can be
interpreted, and the invoice is the one that the layout denotes.
-/
namespace LightningInvoice

namespace Envelope

theorem ofParts_eq_ok {head : List Char} {data : List Symbol} {e : Envelope}
    (h : ofParts head data = .ok e) :
    e.head = head ∧ data = e.body ++ e.checksum ∧ e.checksum = Checksum.create head e.body := by
  rw [ofParts] at h
  split at h
  · exact absurd h (by simp)
  · rename_i long
    split at h
    · rename_i accepted
      obtain rfl := Except.ok.inj h
      have whole : data.take (data.length - Checksum.width) ++
          data.drop (data.length - Checksum.width) = data := List.take_append_drop _ _
      have six : (data.drop (data.length - Checksum.width)).length = Checksum.width := by
        rw [List.length_drop]
        omega
      refine ⟨rfl, whole.symm, ?_⟩
      rw [Bool.and_eq_true, ← whole] at accepted
      exact (Checksum.verify_append_iff six).mp accepted.2
    · exact absurd h (by simp)

theorem ofParts_create {head : List Char} (ascii : isAscii head = true) (body : List Symbol) :
    ofParts head (body ++ Checksum.create head body) =
      .ok ⟨head, body, Checksum.create head body⟩ := by
  have six := Checksum.length_create head body
  have valid := (Checksum.verify_append_iff six).mpr rfl
  have start : (body ++ Checksum.create head body).length - Checksum.width = body.length := by
    rw [List.length_append, six, Nat.add_sub_cancel]
  rw [ofParts, if_neg (by rw [List.length_append, six]; omega), if_pos (by rw [ascii, valid]; rfl),
    start, List.take_left, List.drop_left]

theorem read_eq_ok {text : List Char} (lower : text.map Char.toLower = text) {e : Envelope}
    (h : read text = .ok e) :
    text = e.head ++ '1' :: Symbol.text (e.body ++ e.checksum) ∧
      e.checksum = Checksum.create e.head e.body := by
  rw [read] at h
  split at h
  · exact absurd h (by simp)
  · rename_i head characters cut
    split at h
    · exact absurd h (by simp)
    · rename_i data known
      obtain ⟨rfl, rfl, created⟩ := ofParts_eq_ok h
      obtain ⟨whole, _⟩ := eq_of_splitLast cut
      refine ⟨?_, created⟩
      rw [Symbol.text_of_ofText known, (map_toLower_of_splitLast lower cut).2, whole]

theorem read_text {head : List Char} (ascii : isAscii head = true) (body : List Symbol) :
    read (head ++ '1' :: Symbol.text (body ++ Checksum.create head body)) =
      .ok ⟨head, body, Checksum.create head body⟩ := by
  rw [read, splitLast_append (Symbol.separator_not_mem_text _) head]
  dsimp only
  rw [Symbol.ofText_text]
  exact ofParts_create ascii body

end Envelope

/-- The parts of the layout can be interpreted, and the invoice says what they say. -/
structure Layout.Denotes (l : Layout) (inv : Invoice) : Prop where
  seven : l.timestamp.length = Request.timestampWidth
  human : HumanReadable.parse l.head = .ok inv.human
  timestamp : inv.timestamp.toNat = Symbol.number l.timestamp
  readable : ∀ f ∈ l.fields, f.Readable
  tags : inv.tags = Frame.kept l.fields
  signature : Signature.ofSymbols l.signature = .ok inv.signature
  signingData : inv.signingData = Request.signingData l.head l.signed
  checksum : inv.checksum = String.ofList (Symbol.text l.checksum)

theorem Layout.Denotes.unique {l : Layout} {a b : Invoice} (first : l.Denotes a)
    (second : l.Denotes b) : a = b := by
  obtain ⟨_, humanA, timeA, _, tagsA, sigA, dataA, sumA⟩ := first
  obtain ⟨_, humanB, timeB, _, tagsB, sigB, dataB, sumB⟩ := second
  obtain ⟨human, timestamp, tags, signature, signingData, checksum⟩ := a
  obtain ⟨_, _, _, _, _, _⟩ := b
  have humans := Except.ok.inj (humanA.symm.trans humanB)
  have signatures := Except.ok.inj (sigA.symm.trans sigB)
  rw [Invoice.mk.injEq]
  exact ⟨humans, UInt64.toNat_inj.mp (timeA.trans timeB.symm), tagsA.trans tagsB.symm, signatures,
    dataA.trans dataB.symm, sumA.trans sumB.symm⟩

namespace Request

/-- The characters of a request, its letters in lower case. -/
def lowered (request : String) : List Char := request.toList.map Char.toLower

theorem interpret_short {human : HumanReadable} {e : Envelope}
    (short : e.body.length < timestampWidth + Signature.width) :
    interpret human e = ⟨[], .error (.malformed .shortData)⟩ := by
  rw [interpret, if_pos short]

theorem exists_parts {body : List Symbol}
    (long : ¬ body.length < timestampWidth + Signature.width) :
    ∃ timestamp stream signature, body = timestamp ++ stream ++ signature ∧
      timestamp.length = timestampWidth ∧ signature.length = Signature.width := by
  refine ⟨(body.take (body.length - Signature.width)).take timestampWidth,
    (body.take (body.length - Signature.width)).drop timestampWidth,
    body.drop (body.length - Signature.width), ?_, ?_, ?_⟩
  · rw [List.take_append_drop, List.take_append_drop]
  · rw [List.length_take, List.length_take]
    omega
  · rw [List.length_drop]
    omega

theorem interpret_parts (human : HumanReadable) (head : List Char)
    {timestamp signature : List Symbol} (stream checksum : List Symbol)
    (seven : timestamp.length = timestampWidth) (width : signature.length = Signature.width) :
    interpret human ⟨head, timestamp ++ stream ++ signature, checksum⟩ =
      match (Report.ofStream stream).result, Signature.ofSymbols signature with
      | .error e, _ => ⟨(Report.ofStream stream).notes, .error e⟩
      | .ok _, .error e => ⟨(Report.ofStream stream).notes, .error e⟩
      | .ok tags, .ok sig =>
        ⟨(Report.ofStream stream).notes ++ [.finished human.network tags.length], .ok
          { human := human
            timestamp := UInt64.ofNat (Symbol.number timestamp)
            tags := tags
            signature := sig
            signingData := signingData head (timestamp ++ stream)
            checksum := String.ofList (Symbol.text checksum) }⟩ := by
  have length : (timestamp ++ stream ++ signature).length - Signature.width =
      (timestamp ++ stream).length := by
    rw [List.length_append, width, Nat.add_sub_cancel]
  have long : ¬ (timestamp ++ stream ++ signature).length < timestampWidth + Signature.width := by
    simp only [List.length_append, seven, width]
    omega
  rw [interpret]
  dsimp only
  rw [if_neg long, length, List.take_left, List.drop_left, List.drop_left' seven,
    List.take_left' seven]
  cases (Report.ofStream stream).result with
  | error e => rfl
  | ok tags => cases Signature.ofSymbols signature <;> rfl

theorem toNat_timestamp {timestamp : List Symbol} (seven : timestamp.length = timestampWidth) :
    (UInt64.ofNat (Symbol.number timestamp)).toNat = Symbol.number timestamp := by
  have short : timestamp.length ≤ 12 := by
    rw [seven]
    decide
  exact UInt64.toNat_ofNat_of_lt' (Symbol.number_lt_of_length short)

theorem denotes_of_interpret {human : HumanReadable} {e : Envelope} {inv : Invoice}
    (read : HumanReadable.parse e.head = .ok human)
    (created : e.checksum = Checksum.create e.head e.body)
    (h : (interpret human e).result = .ok inv) :
    ∃ l : Layout, l.head = e.head ∧ l.body = e.body ∧ l.Denotes inv := by
  by_cases short : e.body.length < timestampWidth + Signature.width
  · rw [interpret_short short] at h
    exact absurd h (by simp)
  obtain ⟨head, body, checksum⟩ := e
  dsimp only at read created short
  obtain ⟨timestamp, stream, signature, rfl, seven, width⟩ := exists_parts short
  rw [interpret_parts human head stream checksum seven width] at h
  split at h
  · exact absurd h (by simp)
  · exact absurd h (by simp)
  · rename_i tags sig fields symbols
    obtain rfl := Except.ok.inj h
    obtain ⟨frames, rfl, readable, rfl⟩ := Report.result_ofStream_eq_ok_iff.mp fields
    exact ⟨⟨head, timestamp, frames, signature⟩, rfl, rfl,
      ⟨seven, read, toNat_timestamp seven, readable, rfl, symbols, rfl, by rw [created]; rfl⟩⟩

theorem interpret_layout {l : Layout} {inv : Invoice} (denotes : l.Denotes inv) :
    (interpret inv.human ⟨l.head, l.body, l.checksum⟩).result = .ok inv := by
  have fields := Report.result_ofStream_eq_ok_iff.mpr ⟨l.fields, rfl, denotes.readable, rfl⟩
  have width := Signature.length_of_ofSymbols denotes.signature
  rw [Layout.body, Layout.signed, interpret_parts _ _ _ _ denotes.seven width, fields,
    denotes.signature]
  dsimp only
  rw [Except.ok.injEq, Invoice.mk.injEq]
  refine ⟨rfl, ?_, denotes.tags.symm, rfl, denotes.signingData.symm, denotes.checksum.symm⟩
  rw [← denotes.timestamp, UInt64.ofNat_toNat]

/-- A request is read if and only if no demand of the policy is broken and the request, in lower
case, is the text of a layout; the invoice is the one that the layout denotes. -/
theorem result_decodeUnder_eq_ok_iff {policy : Policy} {request : String} {inv : Invoice} :
    (decodeUnder policy request).result = .ok inv ↔
      policy.violation? request.toList = none ∧
        ∃ l : Layout, lowered request = l.text ∧ l.Denotes inv := by
  rw [decodeUnder]
  constructor
  · intro h
    split at h
    · exact absurd h (by simp)
    · rename_i demands
      split at h
      · exact absurd h (by simp)
      · rename_i e envelope
        split at h
        · exact absurd h (by simp)
        · rename_i human read
          obtain ⟨text, created⟩ :=
            Envelope.read_eq_ok (map_toLower_map_toLower request.toList) envelope
          obtain ⟨l, head, body, denotes⟩ := denotes_of_interpret read created h
          refine ⟨demands, l, ?_, denotes⟩
          rw [lowered, text, Layout.text, Layout.checksum, head, body, created]
  · rintro ⟨demands, l, text, denotes⟩
    rw [lowered, Layout.text] at text
    have ascii := isAscii_of_plain (plain_of_parse denotes.human)
    have envelope := Envelope.read_text ascii l.body
    rw [← Layout.checksum, ← text] at envelope
    rw [demands]
    dsimp only
    rw [envelope]
    dsimp only
    rw [denotes.human]
    exact interpret_layout denotes

theorem violation?_default (request : List Char) : Policy.violation? {} request = none := rfl

theorem decode_eq_ok_iff {request : String} {inv : Invoice} :
    decode request = .ok inv ↔ ∃ l : Layout, lowered request = l.text ∧ l.Denotes inv := by
  rw [decode, result_decodeUnder_eq_ok_iff, violation?_default]
  exact and_iff_right rfl

theorem lowered_ofList {head : List Char} (plain : head.map Char.toLower = head)
    (data : List Symbol) :
    lowered (String.ofList (head ++ '1' :: Symbol.text data)) = head ++ '1' :: Symbol.text data := by
  have separator : Char.toLower '1' = '1' := rfl
  rw [lowered, String.toList_ofList, List.map_append, List.map_cons, plain, separator,
    Symbol.map_toLower_text]

theorem lowered_text {l : Layout} {inv : Invoice} (denotes : l.Denotes inv) :
    lowered (String.ofList l.text) = l.text :=
  lowered_ofList (map_toLower_of_plain (plain_of_parse denotes.human)) _

end Request
end LightningInvoice
