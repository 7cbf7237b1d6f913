import LightningInvoice.Request

/-! Writing payment requests: the parts of a request in their order, followed by the checksum that
belongs to them. -/
namespace LightningInvoice

/-- The parts of a request, all but the checksum. -/
structure Layout where
  head : List Char
  timestamp : List Symbol
  fields : List Frame
  signature : List Symbol
  deriving DecidableEq

namespace Layout

/-- The layout that says a point in time and holds a signature. -/
def compose (head : List Char) (timestamp : Nat) (fields : List Frame) (sig : Signature) :
    Layout :=
  ⟨head, Symbol.ofNumber Request.timestampWidth timestamp, fields, sig.symbols⟩

/-- The symbols that the signature commits to. -/
def signed (l : Layout) : List Symbol := l.timestamp ++ l.fields.flatMap Frame.symbols

def body (l : Layout) : List Symbol := l.signed ++ l.signature

def checksum (l : Layout) : List Symbol := Checksum.create l.head l.body

def text (l : Layout) : List Char := l.head ++ '1' :: Symbol.text (l.body ++ l.checksum)

end Layout
end LightningInvoice
