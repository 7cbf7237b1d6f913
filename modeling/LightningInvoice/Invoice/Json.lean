import LightningInvoice.Invoice
import LightningInvoice.Json

/-! Invoices as JSON: bytes are hexadecimal digits, symbols are their characters, and members stand
in a fixed order. -/
namespace LightningInvoice

/-- Bytes as a JSON string of hexadecimal digits. -/
def Json.hex (bytes : List UInt8) : Json := .string (String.ofList (Hex.ofBytes bytes))

def Amount.json : Amount → Json
  | .unspecified => .string "unspecified"
  | .msat value => .number value.toNat

def HumanReadable.json (h : HumanReadable) : Json :=
  .object [("prefix", .string h.network.name), ("amount", h.amount.json)]

def Signature.json (sig : Signature) : Json :=
  .object [("r", .hex sig.r.toList), ("s", .hex sig.s.toList),
    ("recoveryFlag", .number sig.recoveryFlag.toNat)]

def Fallback.json (f : Fallback) : Json :=
  .object [("version", .number f.version.toNat), ("fallbackAddress", .hex f.program)]

def Hop.json (hop : Hop) : Json :=
  .object [("publicKey", .hex hop.node.toList),
    ("shortChannelId", .hex (Bytes.ofNumber 8 hop.channel.toNat).toList),
    ("feeBaseMsat", .number hop.baseFee.toNat),
    ("feeProportionalMillionths", .number hop.proportionalFee.toNat),
    ("cltvExpiryDelta", .number hop.expiryDelta.toNat)]

def Features.json (f : Features) : Json := .array (f.setBits.map .number)

def UnknownField.json (field : UnknownField) : Json :=
  .object [("tagCode", .number field.code.toNat), ("length", .number field.payload.length),
    ("data", .string (String.ofList (Symbol.text field.payload)))]

namespace Tag

def valueJson : Tag → Json
  | .paymentHash hash => .hex hash.toList
  | .description text => .string text
  | .payee key => .hex key.toList
  | .descriptionHash hash => .hex hash.toList
  | .expiry seconds => .number seconds.toNat
  | .minFinalCltv delta => .number delta.toNat
  | .fallback address => address.json
  | .route hops => .array (hops.map Hop.json)
  | .paymentSecret secret => .hex secret.toList
  | .metadata bytes => .hex bytes
  | .features bits => bits.json
  | .unknown field => field.json

def json (t : Tag) : Json := .object [("type", .string t.name), ("value", t.valueJson)]

end Tag

namespace Invoice

/-- The members of an invoice, grouped as in a request. -/
def json (inv : Invoice) : Json :=
  .object [("humanReadablePart", inv.human.json),
    ("data", .object [("timeStamp", .number inv.timestamp.toNat),
      ("tags", .array (inv.tags.map Tag.json)), ("signature", inv.signature.json),
      ("signingData", .hex inv.signingData)]),
    ("checksum", .string inv.checksum)]

def jsonText (inv : Invoice) : String := String.ofList inv.json.render

end Invoice
end LightningInvoice
