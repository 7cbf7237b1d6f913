import LightningInvoice.Proofs.Regroup.Inverse
import LightningInvoice.Proofs.Tag.Outcome

/-!
The payloads that a tag is written as, and what is read back from them. Bytes are unpacked into
symbols, a number may have any number of leading zeros, and what an unknown field holds is written
as it stands. The bits behind the last whole byte are not read.
-/
namespace LightningInvoice

namespace Payload

theorem fixed_unpack (width : Nat) (b : Bytes (width * 5 / 8))
    (length : (unpack b.toList).length = width) : fixed width (unpack b.toList) = .ok b := by
  rw [fixed, dif_pos length]
  exact congrArg Except.ok (Bytes.ext (pack_dropped_unpack b.toList))

theorem bytes32_unpack (b : Bytes 32) : bytes32 (unpack b.toList) = .ok b :=
  fixed_unpack 52 b (by rw [length_unpack, b.length_toList])

theorem bytes33_unpack (b : Bytes 33) : bytes33 (unpack b.toList) = .ok b :=
  fixed_unpack 53 b (by rw [length_unpack, b.length_toList])

theorem text_unpack (s : String) : text (unpack (Utf8.encode s.toList)) = .ok s := by
  rw [text, bytes, pack_dropped_unpack, Utf8.decode_encode]
  exact congrArg Except.ok String.ofList_toList

theorem number_numeral (zeros : Nat) (n : UInt64) :
    number (Symbol.numeral zeros n.toNat) = .ok n := by
  have value : Symbol.number? (Symbol.numeral zeros n.toNat) = some n :=
    Symbol.number?_eq_some_iff.mpr (Symbol.number_numeral zeros n.toNat)
  rw [number, value]

theorem fallback_unpack {address : Fallback} (known : address.version.toNat ≤ 18) :
    fallback (Symbol.ofByte address.version :: unpack address.program) = .ok address := by
  have low : ¬ greatestVersion < address.version :=
    UInt8.not_lt.mpr (UInt8.le_iff_toNat_le.mpr known)
  have version : (Symbol.ofByte address.version).toByte = address.version :=
    Symbol.toByte_ofByte (by omega)
  rw [fallback, version, if_neg low, bytes, pack_dropped_unpack]

section
variable {p q : List Symbol} (same : pack .dropped p = pack .dropped q)
include same

theorem fixed_congr {width : Nat} (lengths : p.length = q.length) : fixed width p = fixed width q := by
  unfold fixed
  simp only [lengths, same]

theorem text_congr : text p = text q := by
  rw [text, text, bytes, bytes, same]

theorem route_congr : route p = route q := by
  rw [route, route, Hop.listOfSymbols?, Hop.listOfSymbols?, same]

theorem fallback_congr (version : Symbol) : fallback (version :: p) = fallback (version :: q) := by
  rw [fallback, fallback, bytes, bytes, same]

end

end Payload

namespace Tag

/-- The payloads that a tag is written as. Nothing is said of routes and of features. -/
inductive Encodes : Tag → List Symbol → Prop
  | paymentHash (hash : Bytes 32) : Encodes (.paymentHash hash) (unpack hash.toList)
  | descriptionHash (hash : Bytes 32) : Encodes (.descriptionHash hash) (unpack hash.toList)
  | paymentSecret (secret : Bytes 32) : Encodes (.paymentSecret secret) (unpack secret.toList)
  | payee (key : Bytes 33) : Encodes (.payee key) (unpack key.toList)
  | description (text : String) : Encodes (.description text) (unpack (Utf8.encode text.toList))
  | metadata (bytes : List UInt8) : Encodes (.metadata bytes) (unpack bytes)
  | fallback {address : Fallback} (known : address.version.toNat ≤ 18) :
    Encodes (.fallback address) (Symbol.ofByte address.version :: unpack address.program)
  | expiry (zeros : Nat) (seconds : UInt64) :
    Encodes (.expiry seconds) (Symbol.numeral zeros seconds.toNat)
  | minFinalCltv (zeros : Nat) (delta : UInt64) :
    Encodes (.minFinalCltv delta) (Symbol.numeral zeros delta.toNat)
  | unknown {field : UnknownField} (outside : field.code ∉ meaningful) :
    Encodes (.unknown field) field.payload

/-- Payloads of one length whose bits differ at most behind the last whole byte. -/
def DifferInPadding (p q : List Symbol) : Prop :=
  p.length = q.length ∧
    (Bits.ofWords p).take (p.length * 5 / 8 * 8) = (Bits.ofWords q).take (p.length * 5 / 8 * 8)

/-- The kinds of field whose whole payload is read as bytes. -/
def bytewise : List FieldKind :=
  [.paymentHash, .description, .payee, .descriptionHash, .route, .paymentSecret, .metadata]

theorem DifferInPadding.pack_eq {p q : List Symbol} (h : DifferInPadding p q) :
    pack .dropped p = pack .dropped q := by
  rw [pack_dropped_eq_iff, ← h.1]
  exact h.2

theorem ofPayload_of_encodes {t : Tag} {payload : List Symbol} (h : Encodes t payload) :
    ofPayload t.code payload = .ok t := by
  cases h with
  | paymentHash hash => exact congrArg (Except.map _) (Payload.bytes32_unpack hash)
  | descriptionHash hash => exact congrArg (Except.map _) (Payload.bytes32_unpack hash)
  | paymentSecret secret => exact congrArg (Except.map _) (Payload.bytes32_unpack secret)
  | payee key => exact congrArg (Except.map _) (Payload.bytes33_unpack key)
  | description text => exact congrArg (Except.map _) (Payload.text_unpack text)
  | metadata bytes =>
    show Except.ok (metadata (pack .dropped (unpack bytes))) = .ok (metadata bytes)
    rw [pack_dropped_unpack]
  | fallback known => exact congrArg (Except.map _) (Payload.fallback_unpack known)
  | expiry zeros seconds => exact congrArg (Except.map _) (Payload.number_numeral zeros seconds)
  | minFinalCltv zeros delta => exact congrArg (Except.map _) (Payload.number_numeral zeros delta)
  | unknown outside => exact ofPayload_of_not_mem outside

theorem ofKind_congr {kind : FieldKind} (member : kind ∈ bytewise) {p q : List Symbol}
    (h : DifferInPadding p q) : ofKind kind p = ofKind kind q := by
  have same := h.pack_eq
  cases kind with
  | paymentHash => exact congrArg (Except.map _) (Payload.fixed_congr same h.1)
  | payee => exact congrArg (Except.map _) (Payload.fixed_congr same h.1)
  | descriptionHash => exact congrArg (Except.map _) (Payload.fixed_congr same h.1)
  | paymentSecret => exact congrArg (Except.map _) (Payload.fixed_congr same h.1)
  | description => exact congrArg (Except.map _) (Payload.text_congr same)
  | route => exact congrArg (Except.map _) (Payload.route_congr same)
  | metadata => rw [ofKind, ofKind, Payload.bytes, Payload.bytes, same]
  | expiry => exact absurd member (by decide)
  | minFinalCltv => exact absurd member (by decide)
  | fallback => exact absurd member (by decide)
  | features => exact absurd member (by decide)

/-- What a tag is written as is read back as that tag, whatever the length symbols say, and the bits
behind the last whole byte have no part in what is read. -/
theorem ofField_of_encodes :
    (∀ t payload, Encodes t payload →
      ∀ upper lower, ofField (t.code :: upper :: lower :: payload) = .ok t) ∧
    (∀ kind ∈ bytewise, ∀ p q, DifferInPadding p q → ∀ upper lower,
      ofField (kind.code :: upper :: lower :: p) = ofField (kind.code :: upper :: lower :: q)) ∧
    ∀ version p q, DifferInPadding p q → ∀ upper lower,
      ofField (FieldKind.fallback.code :: upper :: lower :: version :: p) =
        ofField (FieldKind.fallback.code :: upper :: lower :: version :: q) := by
  refine ⟨?_, ?_, ?_⟩
  · intro t payload encodes upper lower
    exact ofPayload_of_encodes encodes
  · intro kind member p q padding upper lower
    show ofPayload kind.code p = ofPayload kind.code q
    rw [ofPayload_code, ofPayload_code, ofKind_congr member padding]
  · intro version p q padding upper lower
    exact congrArg (Except.map _) (Payload.fallback_congr padding.pack_eq version)

theorem ofField_of_encodes_sample :
    Encodes (.description "é") [24, 14, 20, 16] ∧
      DifferInPadding [24, 14, 20, 16] [24, 14, 20, 31] ∧
      ofField [13, 0, 4, 24, 14, 20, 16] = .ok (.description "é") ∧
      ofField [13, 0, 4, 24, 14, 20, 16] = ofField [13, 0, 4, 24, 14, 20, 31] := by
  have encodes : Encodes (.description "é") [24, 14, 20, 16] := Encodes.description "é"
  have padding : DifferInPadding [24, 14, 20, 16] [24, 14, 20, 31] := by
    unfold DifferInPadding
    decide
  exact ⟨encodes, padding, ofField_of_encodes.1 _ _ encodes 0 4,
    ofField_of_encodes.2.1 .description (by decide) _ _ padding 0 4⟩

end Tag
end LightningInvoice
