import LightningInvoice.Frame
import LightningInvoice.Tag
import LightningInvoice.Error

/-! How the payload of a tagged field is read. Each kind of field has its own form of payload; a
payload of another form makes its field be passed over, or refused. -/
namespace LightningInvoice
namespace Payload

/-- The bytes that exactly `width` symbols hold; a field of another length is passed over. -/
def fixed (width : Nat) (payload : List Symbol) : Except ParseError (Bytes (width * 5 / 8)) :=
  if h : payload.length = width then
    .ok ⟨pack .dropped payload, by rw [length_pack_dropped, h]⟩
  else .error .skip

def bytes32 (payload : List Symbol) : Except ParseError (Bytes 32) := fixed 52 payload

def bytes33 (payload : List Symbol) : Except ParseError (Bytes 33) := fixed 53 payload

def bytes (payload : List Symbol) : List UInt8 := pack .dropped payload

def text (payload : List Symbol) : Except ParseError String :=
  match Utf8.decode (bytes payload) with
  | .ok characters => .ok (String.ofList characters)
  | .error fault => .error (.malformed (.invalidDescription fault))

def number (payload : List Symbol) : Except ParseError UInt64 :=
  match Symbol.number? payload with
  | some n => .ok n
  | none => .error (.malformed .integerOverflow)

def greatestVersion : UInt8 := 18

/-- A version and a program; without a known version the field is passed over. -/
def fallback : List Symbol → Except ParseError Fallback
  | [] => .error .skip
  | version :: program =>
    if greatestVersion < version.toByte then .error .skip
    else .ok ⟨version.toByte, bytes program⟩

/-- One or more whole hops; any other payload is passed over. -/
def route (payload : List Symbol) : Except ParseError (List Hop) :=
  match Hop.listOfSymbols? payload with
  | some hops => .ok hops
  | none => .error .skip

end Payload

namespace Tag

def ofKind (kind : FieldKind) (payload : List Symbol) : Except ParseError Tag :=
  match kind with
  | .paymentHash => (Payload.bytes32 payload).map .paymentHash
  | .description => (Payload.text payload).map .description
  | .payee => (Payload.bytes33 payload).map .payee
  | .descriptionHash => (Payload.bytes32 payload).map .descriptionHash
  | .expiry => (Payload.number payload).map .expiry
  | .minFinalCltv => (Payload.number payload).map .minFinalCltv
  | .fallback => (Payload.fallback payload).map .fallback
  | .route => (Payload.route payload).map .route
  | .paymentSecret => (Payload.bytes32 payload).map .paymentSecret
  | .metadata => .ok (.metadata (Payload.bytes payload))
  | .features => .ok (.features (Features.ofSymbols payload))

/-- Reads the payload of a field with the given code; a field of an unknown code is kept. -/
def ofPayload (code : Symbol) (payload : List Symbol) : Except ParseError Tag :=
  match FieldKind.ofCode? code with
  | some kind => ofKind kind payload
  | none => .ok (.unknown ⟨code, payload⟩)

/-- Reads a whole field. Its two length symbols are not compared with the payload. -/
def ofField : List Symbol → Except ParseError Tag
  | code :: _ :: _ :: payload => ofPayload code payload
  | _ => .error (.malformed .fieldsCutShort)

end Tag

def Frame.tag (f : Frame) : Except ParseError Tag := Tag.ofPayload f.code f.payload

theorem Tag.ofField_symbols (f : Frame) : Tag.ofField f.symbols = f.tag := rfl

end LightningInvoice
