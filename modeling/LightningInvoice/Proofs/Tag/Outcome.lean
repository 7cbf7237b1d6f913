import LightningInvoice.Proofs.Payload
import LightningInvoice.Proofs.Regroup.Inverse

/-!
What becomes of a field, by its code and the symbols of its payload: it is passed over, it makes the
whole request be refused, or it is kept as a tag of its own code. The three kinds of condition are
stated on numbers of symbols, on the bytes that a payload holds, and on the number that it denotes;
no reader is named in them.
-/
namespace LightningInvoice
namespace Tag

/-- The fields that are passed over: those of a length that their code does not have, those without
a known version, and those that do not hold whole hops of 51 bytes. -/
def PassedOver (code : Symbol) (payload : List Symbol) : Prop :=
  (code = 1 ∨ code = 16 ∨ code = 23) ∧ payload.length ≠ 52 ∨
    code = 19 ∧ payload.length ≠ 53 ∨
    code = 9 ∧
      (payload = [] ∨ ∃ version, payload.head? = some version ∧ 18 < version.toNat) ∨
    code = 3 ∧ (payload.length * 5 / 8 = 0 ∨ payload.length * 5 / 8 % 51 ≠ 0)

/-- The fields of a text that is not UTF-8. The text is in the whole bytes that the bits of the
payload begin with. -/
def NoText (code : Symbol) (payload : List Symbol) : Prop :=
  code = 13 ∧ ∃ bytes,
    Bits.ofBytes bytes = (Bits.ofWords payload).take (payload.length * 5 / 8 * 8) ∧
      ¬ Utf8.WellFormed bytes

/-- The fields of a number that does not fit in 64 bits. -/
def TooLarge (code : Symbol) (payload : List Symbol) : Prop :=
  (code = 6 ∨ code = 24) ∧ 2 ^ 64 ≤ Symbol.number payload

/-- The codes that have a meaning. -/
def meaningful : List Symbol := [1, 3, 5, 6, 9, 13, 16, 19, 23, 24, 27]

/-- What is kept of the fields of a code: a tag of that code, and the symbols as they stand exactly
if the code has no meaning. -/
def Keeps (code : Symbol) (payload : List Symbol) (t : Tag) : Prop :=
  t.code = code ∧ ∀ field, t = .unknown field ↔ code ∉ meaningful ∧ field = ⟨code, payload⟩

variable {code : Symbol} {payload : List Symbol}

theorem mem_meaningful_iff : code ∈ meaningful ↔ code ∈ FieldKind.all.map FieldKind.code := by
  revert code; decide

theorem code_mem_meaningful (kind : FieldKind) : kind.code ∈ meaningful := by
  cases kind <;> decide

theorem exists_kind_or_not_mem (code : Symbol) :
    (∃ kind : FieldKind, kind.code = code) ∨ code ∉ meaningful := by
  rw [mem_meaningful_iff, List.mem_map]
  by_cases known : ∃ kind ∈ FieldKind.all, kind.code = code
  · obtain ⟨kind, _, same⟩ := known
    exact Or.inl ⟨kind, same⟩
  · exact Or.inr known

theorem noText_iff : NoText code payload ↔ code = 13 ∧ ¬ Utf8.WellFormed (pack .dropped payload) := by
  rw [NoText, ← ofBytes_pack_dropped]
  apply and_congr_right
  intro _
  constructor
  · rintro ⟨bytes, same, malformed⟩
    rwa [← Bits.ofBytes_injective same]
  · intro malformed
    exact ⟨_, rfl, malformed⟩

theorem PassedOver.mem_meaningful (h : PassedOver code payload) : code ∈ meaningful := by
  rcases h with ⟨rfl | rfl | rfl, _⟩ | ⟨rfl, _⟩ | ⟨rfl, _⟩ | ⟨rfl, _⟩ <;> decide

theorem TooLarge.mem_meaningful (h : TooLarge code payload) : code ∈ meaningful := by
  rcases h with ⟨rfl | rfl, _⟩ <;> decide

/-! ### What is refused -/

theorem ofKind_eq_error_iff (kind : FieldKind) {e : ParseError} :
    ofKind kind payload = .error e ↔
      PassedOver kind.code payload ∧ e = .skip ∨
        TooLarge kind.code payload ∧ e = .malformed .integerOverflow ∨
        kind.code = 13 ∧ ∃ fault, Utf8.decode (pack .dropped payload) = .error fault ∧
          e = .malformed (.invalidDescription fault) := by
  cases kind <;>
    simp [ofKind, map_eq_error_iff, PassedOver, TooLarge, FieldKind.code,
      Payload.bytes32_eq_error_iff, Payload.bytes33_eq_error_iff, Payload.text_eq_error_iff,
      Payload.number_eq_error_iff, Payload.fallback_eq_error_iff, Payload.route_eq_error_iff,
      Payload.bytes]

theorem ofPayload_of_not_mem (outside : code ∉ meaningful) :
    ofPayload code payload = .ok (.unknown ⟨code, payload⟩) :=
  ofPayload_of_unknown (mt mem_meaningful_iff.mpr outside) payload

theorem ofPayload_eq_error_iff {e : ParseError} :
    ofPayload code payload = .error e ↔
      PassedOver code payload ∧ e = .skip ∨
        TooLarge code payload ∧ e = .malformed .integerOverflow ∨
        code = 13 ∧ ∃ fault, Utf8.decode (pack .dropped payload) = .error fault ∧
          e = .malformed (.invalidDescription fault) := by
  rcases exists_kind_or_not_mem code with ⟨kind, rfl⟩ | outside
  · rw [ofPayload_code, ofKind_eq_error_iff]
  · rw [ofPayload_of_not_mem outside]
    refine iff_of_false nofun ?_
    rintro (⟨passed, _⟩ | ⟨large, _⟩ | ⟨rfl, _⟩)
    · exact outside passed.mem_meaningful
    · exact outside large.mem_meaningful
    · exact outside (by decide)

theorem error_of_ofPayload {e : ParseError} (h : ofPayload code payload = .error e) :
    e = .skip ∨ (∃ fault, e = .malformed (.invalidDescription fault)) ∨
      e = .malformed .integerOverflow := by
  rcases ofPayload_eq_error_iff.mp h with ⟨_, skip⟩ | ⟨_, overflow⟩ | ⟨_, fault, _, same⟩
  · exact Or.inl skip
  · exact Or.inr (Or.inr overflow)
  · exact Or.inr (Or.inl ⟨fault, same⟩)

theorem ofPayload_eq_skip_iff : ofPayload code payload = .error .skip ↔ PassedOver code payload := by
  simp [ofPayload_eq_error_iff]

theorem ofPayload_eq_overflow_iff :
    ofPayload code payload = .error (.malformed .integerOverflow) ↔ TooLarge code payload := by
  simp [ofPayload_eq_error_iff]

theorem exists_fault_of_ofPayload_iff :
    (∃ fault, ofPayload code payload = .error (.malformed (.invalidDescription fault))) ↔
      NoText code payload := by
  simp [ofPayload_eq_error_iff, noText_iff, Utf8.not_wellFormed_iff]

theorem exists_malformed_iff :
    (∃ fault, ofPayload code payload = .error (.malformed fault)) ↔
      NoText code payload ∨ TooLarge code payload := by
  rw [← exists_fault_of_ofPayload_iff, ← ofPayload_eq_overflow_iff]
  cases read : ofPayload code payload with
  | ok t => simp
  | error e =>
    rcases error_of_ofPayload read with rfl | ⟨fault, rfl⟩ | rfl <;> simp

/-! ### What is kept -/

theorem code_of_kind? {t : Tag} {kind : FieldKind} (h : t.kind? = some kind) :
    t.code = kind.code := by
  cases t <;> cases h <;> rfl

theorem kind?_of_ofKind {kind : FieldKind} {t : Tag} (h : ofKind kind payload = .ok t) :
    t.kind? = some kind := by
  cases kind <;> simp only [ofKind, map_eq_ok_iff, Except.ok.injEq] at h
  case metadata => rw [← h]; rfl
  case features => rw [← h]; rfl
  all_goals
    obtain ⟨_, _, rfl⟩ := h
    rfl

theorem keeps_of_ofPayload {t : Tag} (h : ofPayload code payload = .ok t) : Keeps code payload t := by
  rcases exists_kind_or_not_mem code with ⟨kind, rfl⟩ | outside
  · rw [ofPayload_code] at h
    have same := kind?_of_ofKind h
    refine ⟨code_of_kind? same, fun field => iff_of_false ?_ ?_⟩
    · rintro rfl
      exact absurd same nofun
    · rintro ⟨outside, _⟩
      exact outside (code_mem_meaningful kind)
  · rw [ofPayload_of_not_mem outside] at h
    obtain rfl := Except.ok.inj h
    refine ⟨rfl, fun field => ?_⟩
    rw [unknown.injEq, eq_comm]
    exact (and_iff_right outside).symm

theorem exists_kept_iff :
    (∃ t, ofPayload code payload = .ok t) ↔
      ¬ PassedOver code payload ∧ ¬ NoText code payload ∧ ¬ TooLarge code payload := by
  rw [← ofPayload_eq_skip_iff, ← exists_fault_of_ofPayload_iff, ← ofPayload_eq_overflow_iff]
  cases read : ofPayload code payload with
  | ok t => simp
  | error e =>
    rcases error_of_ofPayload read with rfl | ⟨fault, rfl⟩ | rfl <;> simp

theorem ofField_eq_cutShort_iff {field : List Symbol} :
    ofField field = .error (.malformed .fieldsCutShort) ↔ field.length < 3 := by
  rcases field with - | ⟨code, - | ⟨upper, - | ⟨lower, payload⟩⟩⟩
  · simp [ofField]
  · simp [ofField]
  · simp [ofField]
  · refine iff_of_false (fun short => ?_) (by simp)
    rcases error_of_ofPayload short with other | ⟨fault, other⟩ | other <;> cases other

/-- A field of fewer than three symbols is cut short. Any other is passed over, or refused for its
text or its number, or kept, and its code and its payload alone say which. -/
theorem ofField_outcome :
    (∀ field, ofField field = .error (.malformed .fieldsCutShort) ↔ field.length < 3) ∧
      ∀ code upper lower payload,
        (ofField (code :: upper :: lower :: payload) = .error .skip ↔ PassedOver code payload) ∧
        ((∃ fault, ofField (code :: upper :: lower :: payload) = .error (.malformed fault)) ↔
          NoText code payload ∨ TooLarge code payload) ∧
        ((∃ fault, ofField (code :: upper :: lower :: payload) =
            .error (.malformed (.invalidDescription fault))) ↔ NoText code payload) ∧
        (ofField (code :: upper :: lower :: payload) = .error (.malformed .integerOverflow) ↔
          TooLarge code payload) ∧
        ((∃ t, ofField (code :: upper :: lower :: payload) = .ok t ∧ Keeps code payload t) ↔
          ¬ PassedOver code payload ∧ ¬ NoText code payload ∧ ¬ TooLarge code payload) := by
  constructor
  · intro field
    exact ofField_eq_cutShort_iff
  · intro code upper lower payload
    have kept : (∃ t, ofPayload code payload = .ok t ∧ Keeps code payload t) ↔
        ∃ t, ofPayload code payload = .ok t :=
      exists_congr fun t => ⟨And.left, fun read => ⟨read, keeps_of_ofPayload read⟩⟩
    exact ⟨ofPayload_eq_skip_iff, exists_malformed_iff, exists_fault_of_ofPayload_iff,
      ofPayload_eq_overflow_iff, kept.trans exists_kept_iff⟩

end Tag
end LightningInvoice
