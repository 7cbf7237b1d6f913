import LightningInvoice.Payload
import LightningInvoice.Proofs.Radix
import LightningInvoice.Proofs.Route
import LightningInvoice.Proofs.Utf8

/-! What the readers of payloads give, in terms of the bytes of the payload, and what each of them
refuses. -/
namespace LightningInvoice

section
variable {α β : Type} {f : α → β} {x : Except ParseError α}

theorem map_eq_ok_iff {b : β} : x.map f = .ok b ↔ ∃ a, x = .ok a ∧ f a = b := by
  cases x <;> simp [Except.map]

theorem map_eq_error_iff {e : ParseError} : x.map f = .error e ↔ x = .error e := by
  cases x <;> simp [Except.map]

end

namespace Payload
variable {payload : List Symbol} {e : ParseError}

theorem fixed_eq_error_iff {width : Nat} :
    fixed width payload = .error e ↔ payload.length ≠ width ∧ e = .skip := by
  unfold fixed
  split
  · rename_i same
    simp [same]
  · rename_i other
    simp [other, eq_comm]

theorem bytes32_eq_error_iff : bytes32 payload = .error e ↔ payload.length ≠ 52 ∧ e = .skip :=
  fixed_eq_error_iff

theorem bytes33_eq_error_iff : bytes33 payload = .error e ↔ payload.length ≠ 53 ∧ e = .skip :=
  fixed_eq_error_iff

theorem text_eq_error_iff :
    text payload = .error e ↔ ∃ fault, Utf8.decode (bytes payload) = .error fault ∧
      e = .malformed (.invalidDescription fault) := by
  rw [text]
  cases Utf8.decode (bytes payload) <;> simp [eq_comm]

theorem number_eq_error_iff :
    number payload = .error e ↔
      2 ^ 64 ≤ Symbol.number payload ∧ e = .malformed .integerOverflow := by
  rw [← Symbol.number?_eq_none_iff, number]
  cases Symbol.number? payload <;> simp [eq_comm]

theorem fallback_eq_error_iff :
    fallback payload = .error e ↔
      (payload = [] ∨ ∃ version, payload.head? = some version ∧ 18 < version.toNat) ∧
        e = .skip := by
  cases payload with
  | nil => simp [fallback, eq_comm]
  | cons version program =>
    have unknown : greatestVersion < version.toByte ↔ 18 < version.toNat := by
      rw [UInt8.lt_iff_toNat_lt, Symbol.toNat_toByte]
      rfl
    rw [fallback]
    split
    · rename_i high
      simp [unknown.mp high, eq_comm]
    · rename_i low
      simp [mt unknown.mpr low]

theorem route_eq_error_iff :
    route payload = .error e ↔
      (payload.length * 5 / 8 = 0 ∨ payload.length * 5 / 8 % 51 ≠ 0) ∧ e = .skip := by
  rw [← length_pack_dropped, ← Hop.listOfSymbols?_eq_none_iff, route]
  cases Hop.listOfSymbols? payload <;> simp [eq_comm]

end Payload

/-! ### Codes -/

theorem FieldKind.ofCode?_eq_none_iff {code : Symbol} :
    ofCode? code = none ↔ code ∉ all.map FieldKind.code := by
  simp only [ofCode?, List.find?_eq_none, beq_iff_eq, List.mem_map, not_exists, not_and]

theorem Tag.ofPayload_code (kind : FieldKind) (payload : List Symbol) :
    ofPayload kind.code payload = ofKind kind payload := by
  unfold ofPayload
  rw [FieldKind.ofCode?_code]

theorem Tag.ofPayload_of_unknown {code : Symbol} (unknown : code ∉ FieldKind.all.map FieldKind.code)
    (payload : List Symbol) : ofPayload code payload = .ok (.unknown ⟨code, payload⟩) := by
  unfold ofPayload
  rw [FieldKind.ofCode?_eq_none_iff.mpr unknown]

end LightningInvoice
