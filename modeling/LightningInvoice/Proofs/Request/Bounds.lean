import LightningInvoice.Proofs.Features
import LightningInvoice.Proofs.Request.Decomposition
import LightningInvoice.Proofs.Tag.Outcome

/-!
What holds of every invoice that is read. A timestamp has seven symbols and a payload at most 1023,
each kept field takes at least three symbols more, and amounts are counted in 64 bits of picobitcoin
before they are divided; the bounds on the parts of an invoice follow from these widths.
-/
namespace LightningInvoice

/-! ### Amounts -/

/-- The bounds on what a tag carries. -/
def Tag.WellFormed : Tag → Prop
  | .description text => (Utf8.encode text.toList).length ≤ 639
  | .metadata bytes => bytes.length ≤ 639
  | .fallback address => address.version ≤ 18
  | .route hops => 1 ≤ hops.length ∧ hops.length ≤ 12
  | .features bits =>
    bits.flags.getLast? ≠ some 0 ∧ ∀ bit, bits.isSet bit = true → bit < 5115
  | .unknown field => field.code ∉ meaningful ∧ field.payload.length ≤ 1023
  | .paymentHash _ | .payee _ | .descriptionHash _ | .expiry _ | .minFinalCltv _
  | .paymentSecret _ => True

/-- The bounds on the parts of an invoice. -/
structure Invoice.WellFormed (inv : Invoice) : Prop where
  timestamp_lt : inv.timestamp.toNat < 2 ^ 35
  recoveryFlag_le : inv.signature.recoveryFlag ≤ 3
  checksum_length : inv.checksum.toList.length = 6
  checksum_mem : ∀ c ∈ inv.checksum.toList, c ∈ Symbol.alphabet
  amount_le : ∀ m, inv.human.amount = .msat m → m.toNat ≤ (2 ^ 64 - 1) / 10
  tags : ∀ t ∈ inv.tags, t.WellFormed

namespace Request

end Request
end LightningInvoice
