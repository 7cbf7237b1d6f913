import LightningInvoice.Invoice.Json
import LightningInvoice.Proofs.Features
import LightningInvoice.Proofs.HumanReadable
import LightningInvoice.Proofs.Json
import LightningInvoice.Proofs.Radix
import LightningInvoice.Proofs.Request.Characters

/-!
The JSON text of an invoice determines the invoice. Every part is written in full, fields of
different kinds have different names, and features, of which only the numbers of the set bits are
written, have no bytes but those that their bits need.
-/
namespace LightningInvoice

theorem Json.hex_injective {a b : List UInt8} (h : Json.hex a = Json.hex b) : a = b :=
  Hex.ofBytes_injective (String.ofList_injective (Json.string.inj h))

/-! ### Head and signature -/

theorem Network.name_injective {a b : Network} (h : a.name = b.name) : a = b :=
  lead_injective (String.ofList_injective h)

theorem Amount.json_injective {a b : Amount} (h : a.json = b.json) : a = b := by
  cases a with
  | unspecified =>
    cases b with
    | unspecified => rfl
    | msat _ => simp [json] at h
  | msat m =>
    cases b with
    | unspecified => simp [json] at h
    | msat n => rw [UInt64.toNat_inj.mp (Json.number.inj h)]

theorem HumanReadable.json_injective {a b : HumanReadable} (h : a.json = b.json) : a = b := by
  obtain ⟨network, amount⟩ := a
  obtain ⟨otherNetwork, otherAmount⟩ := b
  simp only [json, Json.object.injEq, List.cons.injEq, Prod.mk.injEq, Json.string.injEq, true_and,
    and_true] at h
  obtain ⟨networks, amounts⟩ := h
  rw [Network.name_injective networks, Amount.json_injective amounts]

theorem Signature.json_injective {a b : Signature} (h : a.json = b.json) : a = b := by
  obtain ⟨r, s, flag⟩ := a
  obtain ⟨otherR, otherS, otherFlag⟩ := b
  simp only [json, Json.object.injEq, List.cons.injEq, Prod.mk.injEq, Json.number.injEq, true_and,
    and_true] at h
  obtain ⟨rs, ss, flags⟩ := h
  rw [Bytes.ext (Json.hex_injective rs), Bytes.ext (Json.hex_injective ss),
    UInt8.toNat_inj.mp flags]

/-! ### Fields -/

theorem Fallback.json_injective {a b : Fallback} (h : a.json = b.json) : a = b := by
  obtain ⟨version, program⟩ := a
  obtain ⟨otherVersion, otherProgram⟩ := b
  simp only [json, Json.object.injEq, List.cons.injEq, Prod.mk.injEq, Json.number.injEq, true_and,
    and_true] at h
  obtain ⟨versions, programs⟩ := h
  rw [UInt8.toNat_inj.mp versions, Json.hex_injective programs]

theorem Hop.json_injective {a b : Hop} (h : a.json = b.json) : a = b := by
  obtain ⟨node, channel, baseFee, proportionalFee, expiryDelta⟩ := a
  obtain ⟨otherNode, otherChannel, otherBaseFee, otherProportionalFee, otherExpiryDelta⟩ := b
  simp only [json, Json.object.injEq, List.cons.injEq, Prod.mk.injEq, Json.number.injEq, true_and,
    and_true] at h
  obtain ⟨nodes, channels, baseFees, proportionalFees, expiryDeltas⟩ := h
  have numbers := congrArg Bytes.number (Bytes.ext (Json.hex_injective channels))
  rw [Bytes.number_ofNumber, Bytes.number_ofNumber,
    Nat.mod_eq_of_lt (show channel.toNat < 256 ^ 8 from channel.toNat_lt),
    Nat.mod_eq_of_lt (show otherChannel.toNat < 256 ^ 8 from otherChannel.toNat_lt)] at numbers
  rw [Bytes.ext (Json.hex_injective nodes), UInt64.toNat_inj.mp numbers,
    UInt32.toNat_inj.mp baseFees, UInt32.toNat_inj.mp proportionalFees,
    UInt16.toNat_inj.mp expiryDeltas]

theorem map_json_injective {α : Type} {f : α → Json} (injective : ∀ {a b}, f a = f b → a = b)
    {as bs : List α} (h : Json.array (as.map f) = .array (bs.map f)) : as = bs :=
  (List.map_inj_right fun _ _ => injective).mp (Json.array.inj h)

theorem Features.json_injective {a b : Features} (h : a.json = b.json) : a = b :=
  setBits_injective (map_json_injective Json.number.inj h)

theorem UnknownField.json_injective {a b : UnknownField} (h : a.json = b.json) : a = b := by
  obtain ⟨code, payload⟩ := a
  obtain ⟨otherCode, otherPayload⟩ := b
  simp only [json, Json.object.injEq, List.cons.injEq, Prod.mk.injEq, Json.number.injEq,
    Json.string.injEq, true_and, and_true] at h
  obtain ⟨codes, _, payloads⟩ := h
  rw [BitVec.eq_of_toNat_eq codes, Symbol.text_injective (String.ofList_injective payloads)]

theorem FieldKind.name_injective {k l : FieldKind} (h : k.name = l.name) : k = l := by
  have distinct : ∀ k ∈ all, ∀ l ∈ all, k.name = l.name → k = l := by decide
  exact distinct k k.mem_all l l.mem_all h

theorem FieldKind.name_ne_unknown (k : FieldKind) : k.name ≠ "unknown" := by
  cases k <;> decide

namespace Tag

theorem kind?_eq_of_name_eq {t u : Tag} (h : t.name = u.name) : t.kind? = u.kind? := by
  unfold name at h
  cases first : t.kind? with
  | none =>
    cases second : u.kind? with
    | none => rfl
    | some l =>
      rw [first, second] at h
      exact absurd h.symm l.name_ne_unknown
  | some k =>
    cases second : u.kind? with
    | none =>
      rw [first, second] at h
      exact absurd h k.name_ne_unknown
    | some l =>
      rw [first, second] at h
      rw [FieldKind.name_injective h]

theorem valueJson_injective {t u : Tag} (kinds : t.kind? = u.kind?)
    (h : t.valueJson = u.valueJson) : t = u := by
  -- Values of different kinds may well have one text, but their names do not.
  cases t <;> cases u <;> try (simp [kind?] at kinds; done)
  case paymentHash.paymentHash => rw [Bytes.ext (Json.hex_injective h)]
  case description.description => rw [Json.string.inj h]
  case payee.payee => rw [Bytes.ext (Json.hex_injective h)]
  case descriptionHash.descriptionHash => rw [Bytes.ext (Json.hex_injective h)]
  case expiry.expiry => rw [UInt64.toNat_inj.mp (Json.number.inj h)]
  case minFinalCltv.minFinalCltv => rw [UInt64.toNat_inj.mp (Json.number.inj h)]
  case fallback.fallback => rw [Fallback.json_injective h]
  case route.route => rw [map_json_injective Hop.json_injective h]
  case paymentSecret.paymentSecret => rw [Bytes.ext (Json.hex_injective h)]
  case metadata.metadata => rw [Json.hex_injective h]
  case features.features => rw [Features.json_injective h]
  case unknown.unknown => rw [UnknownField.json_injective h]

theorem json_injective {t u : Tag} (h : t.json = u.json) : t = u := by
  simp only [json, Json.object.injEq, List.cons.injEq, Prod.mk.injEq, Json.string.injEq, true_and,
    and_true] at h
  exact valueJson_injective (kind?_eq_of_name_eq h.1) h.2

end Tag

/-! ### Invoices -/

namespace Invoice

theorem json_injective {a b : Invoice} (h : a.json = b.json) : a = b := by
  obtain ⟨human, timestamp, tags, signature, signingData, checksum⟩ := a
  obtain ⟨otherHuman, otherTimestamp, otherTags, otherSignature, otherData, otherChecksum⟩ := b
  simp only [json, Json.object.injEq, List.cons.injEq, Prod.mk.injEq, Json.number.injEq,
    Json.string.injEq, true_and, and_true] at h
  obtain ⟨humans, ⟨timestamps, tagLists, signatures, signed⟩, checksums⟩ := h
  rw [HumanReadable.json_injective humans, UInt64.toNat_inj.mp timestamps,
    map_json_injective Tag.json_injective tagLists, Signature.json_injective signatures,
    Json.hex_injective signed, checksums]

/-- Invoices are equal if and only if they are written as the same text, whatever fields they
hold. -/
theorem jsonText_inj {a b : Invoice} : a.jsonText = b.jsonText ↔ a = b := by
  constructor
  · intro texts
    have values := Json.render_injective (String.ofList_injective texts)
    exact json_injective values
  · rintro rfl
    rfl

end Invoice
end LightningInvoice
