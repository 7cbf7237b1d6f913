import LightningInvoice.Invoice

/-! The fields that an invoice needs before it can be paid: one payment hash, one description or
hash of a description, and at most one payment secret. Reading a request does not ask for them. -/
namespace LightningInvoice

inductive SemanticError where
  | noPaymentHash
  | multiplePaymentHashes
  | noDescription
  | multipleDescriptions
  | multiplePaymentSecrets
  deriving DecidableEq

def SemanticError.message : SemanticError → String
  | .noPaymentHash => "The invoice is missing the mandatory payment hash"
  | .multiplePaymentHashes => "The invoice has multiple payment hashes which isn't allowed"
  | .noDescription => "No description or description hash are part of the invoice"
  | .multipleDescriptions =>
    "The invoice contains multiple descriptions and/or description hashes which isn't allowed"
  | .multiplePaymentSecrets => "The invoice contains multiple payment secrets"

/-- Whether a field describes the purpose of the payment, itself or by a hash. -/
def Tag.describes (t : Tag) : Bool := t.description?.isSome || t.descriptionHash?.isSome

namespace Invoice

/-- Checks the fields, payment hashes first and payment secrets last. -/
def checkSemantics (inv : Invoice) : Except SemanticError Unit :=
  let hashes := inv.tags.countP (·.paymentHash?.isSome)
  let descriptions := inv.tags.countP Tag.describes
  let secrets := inv.tags.countP (·.paymentSecret?.isSome)
  if hashes < 1 then .error .noPaymentHash
  else if 1 < hashes then .error .multiplePaymentHashes
  else if descriptions < 1 then .error .noDescription
  else if 1 < descriptions then .error .multipleDescriptions
  else if 1 < secrets then .error .multiplePaymentSecrets
  else .ok ()

end Invoice
end LightningInvoice
