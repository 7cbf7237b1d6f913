import LightningInvoice.Features
import LightningInvoice.Route

/-! Tagged fields with their payloads interpreted: what each of the eleven known kinds of field
carries, and the fields of other codes, which are kept as they stand. -/
namespace LightningInvoice

/-- The kinds of tagged field that have a meaning. -/
inductive FieldKind where
  | paymentHash
  | description
  | payee
  | descriptionHash
  | expiry
  | minFinalCltv
  | fallback
  | route
  | paymentSecret
  | metadata
  | features
  deriving DecidableEq

namespace FieldKind

def all : List FieldKind :=
  [.paymentHash, .description, .payee, .descriptionHash, .expiry, .minFinalCltv, .fallback, .route,
   .paymentSecret, .metadata, .features]

theorem mem_all (k : FieldKind) : k ∈ all := by
  cases k <;> decide

def code : FieldKind → Symbol
  | .paymentHash => 1
  | .description => 13
  | .payee => 19
  | .descriptionHash => 23
  | .expiry => 6
  | .minFinalCltv => 24
  | .fallback => 9
  | .route => 3
  | .paymentSecret => 16
  | .metadata => 27
  | .features => 5

/-- The kind of the fields that a symbol opens. -/
def ofCode? (code : Symbol) : Option FieldKind := all.find? fun k => k.code == code

theorem ofCode?_code (k : FieldKind) : ofCode? k.code = some k := by
  cases k <;> rfl

def name : FieldKind → String
  | .paymentHash => "payment_hash"
  | .description => "description"
  | .payee => "payee_public_key"
  | .descriptionHash => "description_hash"
  | .expiry => "expiry"
  | .minFinalCltv => "min_final_cltv_expiry"
  | .fallback => "fallback_address"
  | .route => "routing_information"
  | .paymentSecret => "payment_secret"
  | .metadata => "metadata"
  | .features => "feature_bits"

end FieldKind

/-- An address on the chain, for a payer that cannot pay over channels. Versions up to 16 are
witness versions; 17 stands for the hash of a key and 18 for the hash of a script. -/
structure Fallback where
  version : UInt8
  program : List UInt8
  deriving DecidableEq

/-- A field that is kept without a meaning. -/
structure UnknownField where
  code : Symbol
  payload : List Symbol
  deriving DecidableEq

inductive Tag where
  | paymentHash (hash : Bytes 32)
  | description (text : String)
  | payee (key : Bytes 33)
  | descriptionHash (hash : Bytes 32)
  | expiry (seconds : UInt64)
  | minFinalCltv (delta : UInt64)
  | fallback (address : Fallback)
  | route (hops : List Hop)
  | paymentSecret (secret : Bytes 32)
  | metadata (bytes : List UInt8)
  | features (bits : Features)
  | unknown (field : UnknownField)
  deriving DecidableEq

namespace Tag

def kind? : Tag → Option FieldKind
  | .paymentHash _ => some .paymentHash
  | .description _ => some .description
  | .payee _ => some .payee
  | .descriptionHash _ => some .descriptionHash
  | .expiry _ => some .expiry
  | .minFinalCltv _ => some .minFinalCltv
  | .fallback _ => some .fallback
  | .route _ => some .route
  | .paymentSecret _ => some .paymentSecret
  | .metadata _ => some .metadata
  | .features _ => some .features
  | .unknown _ => none

def code : Tag → Symbol
  | .unknown field => field.code
  | .paymentHash _ => FieldKind.paymentHash.code
  | .description _ => FieldKind.description.code
  | .payee _ => FieldKind.payee.code
  | .descriptionHash _ => FieldKind.descriptionHash.code
  | .expiry _ => FieldKind.expiry.code
  | .minFinalCltv _ => FieldKind.minFinalCltv.code
  | .fallback _ => FieldKind.fallback.code
  | .route _ => FieldKind.route.code
  | .paymentSecret _ => FieldKind.paymentSecret.code
  | .metadata _ => FieldKind.metadata.code
  | .features _ => FieldKind.features.code

def name (t : Tag) : String :=
  match t.kind? with
  | some k => k.name
  | none => "unknown"

def paymentHash? : Tag → Option (Bytes 32)
  | .paymentHash hash => some hash
  | _ => none

def description? : Tag → Option String
  | .description text => some text
  | _ => none

def payee? : Tag → Option (Bytes 33)
  | .payee key => some key
  | _ => none

def descriptionHash? : Tag → Option (Bytes 32)
  | .descriptionHash hash => some hash
  | _ => none

def expiry? : Tag → Option UInt64
  | .expiry seconds => some seconds
  | _ => none

def minFinalCltv? : Tag → Option UInt64
  | .minFinalCltv delta => some delta
  | _ => none

def fallback? : Tag → Option Fallback
  | .fallback address => some address
  | _ => none

def route? : Tag → Option (List Hop)
  | .route hops => some hops
  | _ => none

def paymentSecret? : Tag → Option (Bytes 32)
  | .paymentSecret secret => some secret
  | _ => none

def metadata? : Tag → Option (List UInt8)
  | .metadata bytes => some bytes
  | _ => none

def features? : Tag → Option Features
  | .features bits => some bits
  | _ => none

def unknown? : Tag → Option UnknownField
  | .unknown field => some field
  | _ => none

end Tag
end LightningInvoice
