import LightningInvoice.Invoice.Semantics
import LightningInvoice.Proofs.Payload
import LightningInvoice.Proofs.Request.Decomposition
import LightningInvoice.Proofs.Request.Refusal

/-!
A request with one field more. A field that is passed over leaves no trace in the invoice but in the
bytes that were signed; a field of an unknown code adds itself to the tags, and every question about
what a payer needs to know has the answer that it had.
-/
namespace LightningInvoice

/-! ### The invoice -/

section
variable {t : Tag} {before behind : List Tag}

theorem findSome?_insert {α : Type} {f : Tag → Option α} (silent : f t = none) :
    (before ++ t :: behind).findSome? f = (before ++ behind).findSome? f := by
  simp [List.findSome?_append, silent]

theorem filterMap_insert {α : Type} {f : Tag → Option α} (silent : f t = none) :
    (before ++ t :: behind).filterMap f = (before ++ behind).filterMap f := by
  simp [silent]

theorem countP_insert {p : Tag → Bool} (silent : p t = false) :
    (before ++ t :: behind).countP p = (before ++ behind).countP p := by
  simp [silent]

end

/-- Every question has one answer for both, those for the tags, for the unknown fields and for the
signed bytes apart. -/
structure Invoice.Agrees (a b : Invoice) : Prop where
  network : a.human.network = b.human.network
  amount : a.human.amount = b.human.amount
  msat : a.human.amount.msat? = b.human.amount.msat?
  created : a.created = b.created
  signature : a.signature = b.signature
  paymentHash : a.paymentHash? = b.paymentHash?
  description : a.description? = b.description?
  descriptionHash : a.descriptionHash? = b.descriptionHash?
  payee : a.payee? = b.payee?
  paymentSecret : a.paymentSecret? = b.paymentSecret?
  metadata : a.metadata? = b.metadata?
  features : a.features? = b.features?
  expiry : a.expiry = b.expiry
  minFinalCltv : a.minFinalCltv = b.minFinalCltv
  fallbacks : a.fallbacks = b.fallbacks
  routes : a.routes = b.routes
  wouldExpire : ∀ moment, a.wouldExpire moment = b.wouldExpire moment
  checkSemantics : a.checkSemantics = b.checkSemantics

theorem Invoice.agrees_of_insert {inv : Invoice} {before behind : List Tag} {field : UnknownField}
    (tags : inv.tags = before ++ behind) (signingData : List UInt8) (checksum : String) :
    Invoice.Agrees
      { inv with
        tags := before ++ Tag.unknown field :: behind
        signingData := signingData
        checksum := checksum } inv := by
  have first {α : Type} (f : Tag → Option α) (silent : f (.unknown field) = none) :
      (before ++ Tag.unknown field :: behind).findSome? f = inv.tags.findSome? f := by
    rw [tags, findSome?_insert silent]
  have every {α : Type} (f : Tag → Option α) (silent : f (.unknown field) = none) :
      (before ++ Tag.unknown field :: behind).filterMap f = inv.tags.filterMap f := by
    rw [tags, filterMap_insert silent]
  have count (p : Tag → Bool) (silent : p (.unknown field) = false) :
      (before ++ Tag.unknown field :: behind).countP p = inv.tags.countP p := by
    rw [tags, countP_insert silent]
  have expiry := first Tag.expiry? rfl
  constructor
  case paymentHash => exact first _ rfl
  case description => exact first _ rfl
  case descriptionHash => exact first _ rfl
  case payee => exact first _ rfl
  case paymentSecret => exact first _ rfl
  case metadata => exact first _ rfl
  case features => exact first _ rfl
  case fallbacks => exact every _ rfl
  case routes => exact every _ rfl
  case expiry => simp only [Invoice.expiry, expiry]
  case minFinalCltv => simp only [minFinalCltv, first Tag.minFinalCltv? rfl]
  case wouldExpire =>
    intro moment
    simp only [wouldExpire, deadline, Invoice.expiry, expiry]
  case checkSemantics =>
    simp only [checkSemantics, count (·.paymentHash?.isSome) rfl, count Tag.describes rfl,
      count (·.paymentSecret?.isSome) rfl]
  all_goals rfl

/-! ### The fields -/

theorem Frame.kept_append (a b : List Frame) : kept (a ++ b) = kept a ++ kept b :=
  List.filterMap_append

theorem Frame.tag_of_unknown {f : Frame} (unknown : ∀ kind : FieldKind, kind.code ≠ f.code) :
    f.tag = .ok (.unknown ⟨f.code, f.payload⟩) := by
  have outside : f.code ∉ FieldKind.all.map FieldKind.code := by
    rw [List.mem_map]
    exact fun ⟨kind, _, same⟩ => unknown kind same
  exact Tag.ofPayload_of_unknown outside f.payload

namespace Layout

/-- The layout with one more field, behind the first `index` fields or behind all. -/
def insertField (l : Layout) (index : Nat) (f : Frame) : Layout :=
  { l with fields := l.fields.take index ++ f :: l.fields.drop index }

theorem Denotes.insertField {l : Layout} {inv : Invoice} (denotes : l.Denotes inv) (index : Nat)
    {f : Frame} (readable : f.Readable) :
    (l.insertField index f).Denotes
      { inv with
        tags := Frame.kept (l.insertField index f).fields
        signingData := Request.signingData l.head (l.insertField index f).signed
        checksum := String.ofList (Symbol.text (l.insertField index f).checksum) } where
  seven := denotes.seven
  human := denotes.human
  timestamp := denotes.timestamp
  readable := by
    intro g member
    rcases List.mem_append.mp member with early | later
    · exact denotes.readable g (List.mem_of_mem_take early)
    · rcases List.mem_cons.mp later with rfl | late
      · exact readable
      · exact denotes.readable g (List.mem_of_mem_drop late)
  tags := rfl
  signature := denotes.signature
  signingData := rfl
  checksum := rfl

theorem Denotes.tags_eq {l : Layout} {inv : Invoice} (denotes : l.Denotes inv) (index : Nat) :
    inv.tags = Frame.kept (l.fields.take index) ++ Frame.kept (l.fields.drop index) := by
  rw [← Frame.kept_append, List.take_append_drop, denotes.tags]

theorem kept_insertField_of_skip (l : Layout) (index : Nat) {f : Frame}
    (skipped : f.tag = .error .skip) :
    Frame.kept (l.insertField index f).fields = Frame.kept l.fields := by
  rw [insertField, Frame.kept_append, Frame.kept_cons_of_error skipped, ← Frame.kept_append,
    List.take_append_drop]

theorem kept_insertField_of_ok (l : Layout) (index : Nat) {f : Frame} {t : Tag}
    (read : f.tag = .ok t) : Frame.kept (l.insertField index f).fields =
      Frame.kept (l.fields.take index) ++ t :: Frame.kept (l.fields.drop index) := by
  rw [insertField, Frame.kept_append, Frame.kept_cons_of_ok read]

end Layout

namespace Request

/-- A request that is read, and one with a field more at any place. If the field is passed over, the
two differ in the signed bytes and the checksum alone; if its code is unknown, it is added to the
tags where it stands, and nothing else is answered differently. No request fails with the error that
makes a field be passed over. -/
theorem decode_insertField :
    (∀ (request longer : String) (inv : Invoice) (l : Layout) (checksum : List Symbol) (index : Nat)
      (f : Frame), decode request = .ok inv → Layout.Spells l checksum (lowered request) →
      lowered longer = (l.insertField index f).text →
        (Tag.ofField f.symbols = .error .skip → decode longer = .ok
          { inv with
            signingData := signingData l.head (l.insertField index f).signed
            checksum := String.ofList (Symbol.text (l.insertField index f).checksum) }) ∧
        ((∀ kind : FieldKind, kind.code ≠ f.code) → ∃ longerInv, decode longer = .ok longerInv ∧
          inv.tags = Frame.kept (l.fields.take index) ++ Frame.kept (l.fields.drop index) ∧
          longerInv.tags = Frame.kept (l.fields.take index) ++
            .unknown ⟨f.code, f.payload⟩ :: Frame.kept (l.fields.drop index) ∧
          longerInv.Agrees inv)) ∧
    ∀ policy request, (decodeUnder policy request).result ≠ .error .skip := by
  refine ⟨?_, result_decodeUnder_ne_skip⟩
  intro request longer inv l checksum index f read spells text
  obtain ⟨m, whole, denotes⟩ := decode_eq_ok_iff.mp read
  have spellsM := denotes.spells
  rw [← whole] at spellsM
  -- A request has one layout only: `m`, which it was read as, is the given one.
  obtain ⟨rfl, _⟩ := spellsM.unique spells
  constructor
  · intro skipped
    have larger := denotes.insertField index (Or.inr skipped)
    rw [Layout.kept_insertField_of_skip m index skipped, ← denotes.tags] at larger
    exact decode_eq_ok_iff.mpr ⟨_, text, larger⟩
  · intro unknown
    have kept := Frame.tag_of_unknown unknown
    have larger := denotes.insertField index (Or.inl ⟨_, kept⟩)
    rw [Layout.kept_insertField_of_ok m index kept] at larger
    have tags := denotes.tags_eq index
    exact ⟨_, decode_eq_ok_iff.mpr ⟨_, text, larger⟩, tags, rfl, Invoice.agrees_of_insert tags _ _⟩

/-- A key of the wrong length as the second field, and a field without a known meaning as the
third. -/
theorem decode_insertField_sample :
    decode (String.ofList (Layout.sample.insertField 1 ⟨19, [1, 2, 3], by decide⟩).text) = .ok
      { Invoice.sample with
        signingData := signingData Layout.sample.head
          (Layout.sample.insertField 1 ⟨19, [1, 2, 3], by decide⟩).signed
        checksum := String.ofList (Symbol.text
          (Layout.sample.insertField 1 ⟨19, [1, 2, 3], by decide⟩).checksum) } ∧
    ∃ longer, decode (String.ofList (Layout.sample.insertField 2 ⟨4, [7], by decide⟩).text) =
        .ok longer ∧
      longer.tags = [.unknown ⟨2, [31, 0]⟩, .unknown ⟨4, [7]⟩, .expiry 60] ∧
      longer.Agrees Invoice.sample := by
  have text := lowered_text Layout.sample_denotes
  have read : decode (String.ofList Layout.sample.text) = .ok Invoice.sample :=
    decode_eq_ok_iff.mpr ⟨_, text, Layout.sample_denotes⟩
  have spells := Layout.sample_denotes.spells
  rw [← text] at spells
  have skipped : Tag.ofField (Frame.symbols ⟨19, [1, 2, 3], by decide⟩) = .error .skip := rfl
  have unknown : ∀ kind : FieldKind, kind.code ≠ (⟨4, [7], by decide⟩ : Frame).code := by
    intro kind
    cases kind <;> decide
  have first := lowered_text (Layout.sample_denotes.insertField 1 (Or.inr skipped))
  have second := lowered_text
    (Layout.sample_denotes.insertField 2 (Or.inl ⟨_, Frame.tag_of_unknown unknown⟩))
  obtain ⟨passed, _⟩ := decode_insertField.1 _ _ _ _ _ _ _ read spells first
  obtain ⟨_, added⟩ := decode_insertField.1 _ _ _ _ _ _ _ read spells second
  obtain ⟨longer, readLonger, _, tags, agrees⟩ := added unknown
  exact ⟨passed skipped, longer, readLonger, tags, agrees⟩

end Request
end LightningInvoice
