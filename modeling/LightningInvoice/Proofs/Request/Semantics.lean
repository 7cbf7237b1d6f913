import LightningInvoice.Proofs.Invoice.Semantics
import LightningInvoice.Proofs.Request.Decomposition
import LightningInvoice.Proofs.Tag.Outcome

/-!
The check of the fields, told by the request as it was sent. A field is counted if it has the code
of a counted kind and, where this kind has 52 symbols, that length; a field of another length is
passed over on reading and counts for nothing, neither in favour of a request nor against it.
-/
namespace LightningInvoice
namespace Frame

/-- The field has a code, and as many symbols as 32 bytes take. -/
def isWhole (code : Symbol) (f : Frame) : Bool := f.code == code && f.payload.length == 52

def isText (f : Frame) : Bool := f.code == 13

def hashes (fields : List Frame) : Nat := fields.countP (isWhole 1)

def descriptions (fields : List Frame) : Nat :=
  fields.countP isText + fields.countP (isWhole 23)

def secrets (fields : List Frame) : Nat := fields.countP (isWhole 16)

/-- The field is one of those that are counted. -/
def isCounted (f : Frame) : Bool := f.isWhole 1 || f.isText || f.isWhole 23 || f.isWhole 16

variable {f : Frame} {fields : List Frame}

/-- A field that is not refused is read as a tag of the kind of its code, if it is not passed
over. -/
theorem exists_kind_iff (readable : f.Readable) (kind : FieldKind) :
    (∃ t, f.tag = .ok t ∧ t.kind? = some kind) ↔
      f.code = kind.code ∧ ¬ Tag.PassedOver f.code f.payload := by
  rw [← Tag.ofPayload_eq_skip_iff]
  constructor
  · rintro ⟨t, read, same⟩
    obtain ⟨code, _⟩ := Tag.keeps_of_ofPayload read
    refine ⟨code.symm.trans (Tag.code_of_kind? same), fun skipped => ?_⟩
    rw [show f.tag = Tag.ofPayload f.code f.payload from rfl, skipped] at read
    cases read
  · rintro ⟨code, kept⟩
    rcases readable with ⟨t, read⟩ | skipped
    · refine ⟨t, read, ?_⟩
      rw [tag, code, Tag.ofPayload_code] at read
      exact Tag.kind?_of_ofKind read
    · exact absurd skipped kept

theorem count_kept {kind : FieldKind} {p : Frame → Bool} (readable : ∀ f ∈ fields, f.Readable)
    (counted : ∀ f : Frame,
      p f = true ↔ f.code = kind.code ∧ ¬ Tag.PassedOver f.code f.payload) :
    kind.count (kept fields) = fields.countP p := by
  rw [FieldKind.count, kept, List.countP_filterMap]
  apply List.countP_congr
  intro f member
  rw [counted, ← exists_kind_iff (readable f member)]
  cases f.tag <;> simp [Except.toOption]

theorem isWhole_iff (kind : FieldKind)
    (hash : kind ∈ [FieldKind.paymentHash, .descriptionHash, .paymentSecret]) :
    f.isWhole kind.code = true ↔ f.code = kind.code ∧ ¬ Tag.PassedOver f.code f.payload := by
  rw [isWhole, Bool.and_eq_true, beq_iff_eq, beq_iff_eq]
  apply and_congr_right
  intro code
  rw [code]
  simp only [List.mem_cons, List.not_mem_nil, or_false] at hash
  rcases hash with rfl | rfl | rfl <;> simp [Tag.PassedOver, FieldKind.code]

theorem isText_iff :
    f.isText = true ↔
      f.code = FieldKind.description.code ∧ ¬ Tag.PassedOver f.code f.payload := by
  rw [isText, beq_iff_eq]
  refine (and_iff_left_of_imp ?_).symm
  intro code
  rw [code]
  simp [Tag.PassedOver]

theorem tallies_kept (readable : ∀ f ∈ fields, f.Readable) :
    FieldKind.paymentHash.count (kept fields) = hashes fields ∧
      (kept fields).countP Tag.describes = descriptions fields ∧
      FieldKind.paymentSecret.count (kept fields) = secrets fields := by
  rw [Tag.countP_describes, count_kept readable fun f => isText_iff,
    count_kept readable fun f => isWhole_iff .paymentHash (by simp),
    count_kept readable fun f => isWhole_iff .descriptionHash (by simp),
    count_kept readable fun f => isWhole_iff .paymentSecret (by simp)]
  exact ⟨rfl, rfl, rfl⟩

theorem countP_filter_isCounted {p : Frame → Bool}
    (counted : ∀ f : Frame, p f = true → f.isCounted = true) :
    (fields.filter isCounted).countP p = fields.countP p := by
  rw [List.countP_filter]
  apply List.countP_congr
  intro f _
  rw [Bool.and_eq_true]
  exact and_iff_left_of_imp (counted f)

theorem tallies_eq_of_perm {others : List Frame}
    (same : (others.filter isCounted).Perm (fields.filter isCounted)) :
    hashes others = hashes fields ∧ descriptions others = descriptions fields ∧
      secrets others = secrets fields := by
  have tally {p : Frame → Bool} (counted : ∀ f : Frame, p f = true → f.isCounted = true) :
      others.countP p = fields.countP p := by
    rw [← countP_filter_isCounted counted, same.countP_eq, countP_filter_isCounted counted]
  have hash := tally (p := isWhole 1) fun f whole => by
    simp only [isCounted, whole, Bool.true_or]
  have text := tally (p := isText) fun f whole => by
    simp only [isCounted, whole, Bool.or_true, Bool.true_or]
  have textHash := tally (p := isWhole 23) fun f whole => by
    simp only [isCounted, whole, Bool.or_true, Bool.true_or]
  have secret := tally (p := isWhole 16) fun f whole => by
    simp only [isCounted, whole, Bool.or_true]
  refine ⟨hash, ?_, secret⟩
  rw [descriptions, text, textHash, descriptions]

end Frame

namespace Request
variable {policy : Policy} {request : String} {inv : Invoice}

theorem tallies_of_decodeUnder {l : Layout} {checksum : List Symbol}
    (read : (decodeUnder policy request).result = .ok inv)
    (spells : l.Spells checksum (lowered request)) :
    FieldKind.paymentHash.count inv.tags = Frame.hashes l.fields ∧
      inv.tags.countP Tag.describes = Frame.descriptions l.fields ∧
      FieldKind.paymentSecret.count inv.tags = Frame.secrets l.fields := by
  obtain ⟨_, m, text, denotes⟩ := result_decodeUnder_eq_ok_iff.mp read
  -- The layout that was read and the given one spell one text, so they have the same fields.
  have spellsM := denotes.spells
  rw [← text] at spellsM
  obtain ⟨rfl, _⟩ := spellsM.unique spells
  rw [denotes.tags]
  exact Frame.tallies_kept denotes.readable

/-- A request that is read has raw fields, and these alone say what the check says of it: it passes
if there is one payment hash of 52 symbols, one description or hash of a description of 52 symbols,
and at most one payment secret of 52 symbols, else it fails with the first of these conditions that
is broken. Two requests with the same such fields, in any order and among any others, are judged
alike. -/
theorem checkSemantics_of_decodeUnder (read : (decodeUnder policy request).result = .ok inv) :
    (∃ (l : Layout) (checksum : List Symbol), l.Spells checksum (lowered request)) ∧
    ∀ (l : Layout) (checksum : List Symbol), l.Spells checksum (lowered request) →
      (inv.checkSemantics = .ok () ↔ Frame.hashes l.fields = 1 ∧ Frame.descriptions l.fields = 1 ∧
        Frame.secrets l.fields ≤ 1) ∧
      (∀ e : SemanticError, inv.checkSemantics = .error e ↔
        e.Arises (Frame.hashes l.fields) (Frame.descriptions l.fields) (Frame.secrets l.fields)) ∧
      ∀ (otherPolicy : Policy) (other : String) (otherInv : Invoice) (m : Layout)
        (otherChecksum : List Symbol), (decodeUnder otherPolicy other).result = .ok otherInv →
        m.Spells otherChecksum (lowered other) →
        (m.fields.filter Frame.isCounted).Perm (l.fields.filter Frame.isCounted) →
          otherInv.checkSemantics = inv.checkSemantics := by
  constructor
  · obtain ⟨_, l, text, denotes⟩ := result_decodeUnder_eq_ok_iff.mp read
    rw [text]
    exact ⟨l, _, denotes.spells⟩
  · intro l checksum spells
    obtain ⟨hashes, descriptions, secrets⟩ := tallies_of_decodeUnder read spells
    refine ⟨?_, fun e => ?_, ?_⟩
    · rw [Invoice.checkSemantics_eq_ok_iff, hashes, descriptions, secrets]
    · rw [Invoice.checkSemantics_eq_error_iff, hashes, descriptions, secrets]
    · intro otherPolicy other otherInv m otherChecksum otherRead otherSpells same
      obtain ⟨otherHashes, otherDescriptions, otherSecrets⟩ :=
        tallies_of_decodeUnder otherRead otherSpells
      obtain ⟨sameHashes, sameDescriptions, sameSecrets⟩ := Frame.tallies_eq_of_perm same
      apply Invoice.checkSemantics_congr
      · rw [otherHashes, sameHashes, hashes]
      · rw [otherDescriptions, sameDescriptions, descriptions]
      · rw [otherSecrets, sameSecrets, secrets]

/-- A request for any amount with the given fields, made at the start of 1970. -/
def requestOf (fields : List Frame) : Layout :=
  Layout.compose ['l', 'n', 'b', 'c'] 0 fields ⟨.ofNumber 32 0, .ofNumber 32 0, 0⟩

theorem exists_invoice_of_fields (fields : List Frame) (readable : ∀ f ∈ fields, f.Readable) :
    ∃ inv, (decodeUnder {} (String.ofList (requestOf fields).text)).result = .ok inv ∧
      (requestOf fields).Spells (requestOf fields).checksum
        (lowered (String.ofList (requestOf fields).text)) := by
  have human : HumanReadable.parse ['l', 'n', 'b', 'c'] = .ok ⟨.bitcoin, .unspecified⟩ := rfl
  have denotes : (requestOf fields).Denotes _ :=
    Layout.denotes_compose human (by decide) readable (by decide)
  have text := lowered_text denotes
  refine ⟨_, decode_eq_ok_iff.mpr ⟨_, text, denotes⟩, ?_⟩
  rw [text]
  exact denotes.spells

/-- A payment hash and an empty description, each beside a field that is too short for its code; and
a request that has the short payment hash alone. -/
theorem checkSemantics_of_decodeUnder_sample :
    (∃ inv, (decodeUnder {} (String.ofList (requestOf [⟨23, [], by decide⟩, ⟨1, [5], by decide⟩,
        ⟨13, [], by decide⟩, ⟨1, List.replicate 52 7, by decide⟩]).text)).result = .ok inv ∧
      inv.checkSemantics = .ok ()) ∧
    ∃ inv, (decodeUnder {} (String.ofList (requestOf [⟨1, [5], by decide⟩,
        ⟨13, [], by decide⟩]).text)).result = .ok inv ∧
      inv.checkSemantics = .error .noPaymentHash := by
  constructor
  · obtain ⟨inv, read, spells⟩ := exists_invoice_of_fields [⟨23, [], by decide⟩,
      ⟨1, [5], by decide⟩, ⟨13, [], by decide⟩, ⟨1, List.replicate 52 7, by decide⟩]
      (by decide +kernel)
    obtain ⟨passes, _⟩ := (checkSemantics_of_decodeUnder read).2 _ _ spells
    exact ⟨inv, read, passes.mpr (by decide)⟩
  · obtain ⟨inv, read, spells⟩ := exists_invoice_of_fields [⟨1, [5], by decide⟩,
      ⟨13, [], by decide⟩] (by decide +kernel)
    obtain ⟨_, fails, _⟩ := (checkSemantics_of_decodeUnder read).2 _ _ spells
    exact ⟨inv, read, (fails _).mpr (.noPaymentHash (by decide))⟩

end Request
end LightningInvoice
