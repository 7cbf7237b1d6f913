import LightningInvoice.HumanReadable
import LightningInvoice.Signature
import LightningInvoice.Tag
import LightningInvoice.Duration

/-! Invoices: what a payment request says, field by field, and the questions that are asked of it.
Of fields of one kind the first counts, where there can be but one answer. -/
namespace LightningInvoice

/-- What a payment request says. -/
structure Invoice where
  human : HumanReadable
  /-- When the request was made, in seconds since the start of 1970. -/
  timestamp : UInt64
  /-- The tagged fields in the order of the request, without those passed over. -/
  tags : List Tag
  signature : Signature
  /-- The bytes that the signature commits to. -/
  signingData : List UInt8
  /-- The six characters at the end of the request. -/
  checksum : String
  deriving DecidableEq

namespace Invoice

/-- How long a request can be paid if it does not say, in seconds. -/
def defaultExpiry : UInt64 := 3600

/-- The final difference in expiry if a request does not say, in blocks. -/
def defaultMinFinalCltv : UInt64 := 18

def paymentHash? (inv : Invoice) : Option (Bytes 32) := inv.tags.findSome? Tag.paymentHash?

def description? (inv : Invoice) : Option String := inv.tags.findSome? Tag.description?

def descriptionHash? (inv : Invoice) : Option (Bytes 32) :=
  inv.tags.findSome? Tag.descriptionHash?

def payee? (inv : Invoice) : Option (Bytes 33) := inv.tags.findSome? Tag.payee?

def paymentSecret? (inv : Invoice) : Option (Bytes 32) := inv.tags.findSome? Tag.paymentSecret?

def metadata? (inv : Invoice) : Option (List UInt8) := inv.tags.findSome? Tag.metadata?

def features? (inv : Invoice) : Option Features := inv.tags.findSome? Tag.features?

/-- How long the request can be paid, in seconds. -/
def expiry (inv : Invoice) : UInt64 := (inv.tags.findSome? Tag.expiry?).getD defaultExpiry

def minFinalCltv (inv : Invoice) : UInt64 :=
  (inv.tags.findSome? Tag.minFinalCltv?).getD defaultMinFinalCltv

def fallbacks (inv : Invoice) : List Fallback := inv.tags.filterMap Tag.fallback?

def routes (inv : Invoice) : List (List Hop) := inv.tags.filterMap Tag.route?

def unknownFields (inv : Invoice) : List UnknownField := inv.tags.filterMap Tag.unknown?

def created (inv : Invoice) : Duration := .ofSeconds inv.timestamp

/-- The last moment at which the request can be paid; the longest span stands for all moments that
do not fit in 64 bits of seconds. -/
def deadline (inv : Invoice) : Duration :=
  match Checked.add? inv.timestamp inv.expiry with
  | some seconds => .ofSeconds seconds
  | none => .longest

/-- Whether the request can no longer be paid at a moment. -/
def wouldExpire (inv : Invoice) (moment : Duration) : Bool := inv.deadline.shorter moment

/-- The invoice with one more field, behind the first `index` fields or behind all. -/
def insertTag (inv : Invoice) (index : Nat) (t : Tag) : Invoice :=
  { inv with tags := inv.tags.take index ++ t :: inv.tags.drop index }

def pushTag (inv : Invoice) (t : Tag) : Invoice := { inv with tags := inv.tags ++ [t] }

def removeTag (inv : Invoice) (index : Nat) : Invoice :=
  { inv with tags := inv.tags.eraseIdx index }

end Invoice
end LightningInvoice
