import LightningInvoice.Checksum
import LightningInvoice.Invoice
import LightningInvoice.Policy
import LightningInvoice.Report

/-!
Payment requests as text. A request is a head, the separator `1`, and characters for symbols, the
last six of them a checksum; letters of either case are read alike. Between separator and checksum
stand a timestamp, the tagged fields and a signature. `decode` reads a request into an invoice.
-/
namespace LightningInvoice

/-- A request that is known to match its checksum. -/
structure Envelope where
  head : List Char
  body : List Symbol
  checksum : List Symbol

namespace Envelope

/-- The text before and the text after the last occurrence of a character. -/
def splitLast (c : Char) : List Char → Option (List Char × List Char)
  | [] => none
  | d :: rest =>
    match splitLast c rest with
    | some (before, behind) => some (d :: before, behind)
    | none => if d = c then some ([], rest) else none

def isAscii (text : List Char) : Bool := text.all fun c => c.toNat < 128

/-- Puts head and symbols apart from the checksum, which has to belong to them. -/
def ofParts (head : List Char) (data : List Symbol) : Except ParseError Envelope :=
  if data.length < Checksum.width then .error (.malformed .shortData)
  else if isAscii head && Checksum.verify head data then
    .ok ⟨head, data.take (data.length - Checksum.width), data.drop (data.length - Checksum.width)⟩
  else .error .wrongChecksum

/-- Reads a request whose letters are in lower case. -/
def read (text : List Char) : Except ParseError Envelope :=
  match splitLast '1' text with
  | none => .error (.malformed .missingSeparator)
  | some (head, characters) =>
    match Symbol.ofText characters with
    | .error c => .error (.invalidCharacter c)
    | .ok data => ofParts head data

end Envelope

namespace Request

def timestampWidth : Nat := 7

/-- The bytes that a signature commits to: the head, and the symbols before the signature with the
last byte filled up. -/
def signingData (head : List Char) (signed : List Symbol) : List UInt8 :=
  Utf8.encode head ++ pack .padded signed

/-- Interprets an envelope whose head is read already. -/
def interpret (human : HumanReadable) (envelope : Envelope) : Report Invoice :=
  if envelope.body.length < timestampWidth + Signature.width then
    ⟨[], .error (.malformed .shortData)⟩
  else
    let signed := envelope.body.take (envelope.body.length - Signature.width)
    let fields := Report.ofStream (signed.drop timestampWidth)
    match fields.result with
    | .error e => ⟨fields.notes, .error e⟩
    | .ok tags =>
      match Signature.ofSymbols (envelope.body.drop (envelope.body.length - Signature.width)) with
      | .error e => ⟨fields.notes, .error e⟩
      | .ok signature =>
        ⟨fields.notes ++ [.finished human.network tags.length], .ok
          { human := human
            timestamp := UInt64.ofNat (Symbol.number (signed.take timestampWidth))
            tags := tags
            signature := signature
            signingData := signingData envelope.head signed
            checksum := String.ofList (Symbol.text envelope.checksum) }⟩

/-- Reads a request under a policy, and reports what was noted on the way. -/
def decodeUnder (policy : Policy) (request : String) : Report Invoice :=
  match policy.violation? request.toList with
  | some e => ⟨[], .error e⟩
  | none =>
    match Envelope.read (request.toList.map Char.toLower) with
    | .error e => ⟨[], .error e⟩
    | .ok envelope =>
      match HumanReadable.parse envelope.head with
      | .error e => ⟨[], .error e⟩
      | .ok human => interpret human envelope

/-- Reads a request without any further demand. -/
def decode (request : String) : Except ParseError Invoice := (decodeUnder {} request).result

end Request
end LightningInvoice
