import LightningInvoice.Payload
import LightningInvoice.Network
import LightningInvoice.Log

/-!
Reading the tagged fields of a request, with notes on the way. A field whose payload has a form that
calls for it is passed over, a field of unknown code is kept, and both are noted; the first field
that is neither stops the reading.
-/
namespace LightningInvoice

inductive Note where
  /-- A field with so many payload symbols was passed over. -/
  | skipped (code : Symbol) (length : Nat)
  /-- A field of unknown code was kept with so many payload symbols. -/
  | kept (code : Symbol) (length : Nat)
  /-- A request for a network was read and has so many fields. -/
  | finished (network : Network) (fields : Nat)
  deriving DecidableEq

/-- A note as a line of a log. -/
def Note.line : Note → Log.Line
  | .skipped code length =>
    ⟨.trace, "Skipping tagged field '" ++ code.toChar.toString ++ "' with data length " ++
      toString length⟩
  | .kept code length =>
    ⟨.debug, "Keeping tagged field with unknown tag '" ++ code.toChar.toString ++
      "' and data length " ++ toString length ++ " uninterpreted"⟩
  | .finished network fields =>
    ⟨.trace, "Decoded " ++ network.name ++ " payment request with " ++ toString fields ++
      " tagged fields"⟩

/-- What comes of reading: the notes made, and a value or the error that stopped it. -/
structure Report (α : Type) where
  notes : List Note
  result : Except ParseError α

def Tag.notes : Tag → List Note
  | .unknown field => [.kept field.code field.payload.length]
  | _ => []

namespace Report

def after {α : Type} (notes : List Note) (r : Report α) : Report α :=
  ⟨notes ++ r.notes, r.result⟩

/-- The report of the fields after a kept one, with that field in front. -/
def keep (t : Tag) (r : Report (List Tag)) : Report (List Tag) :=
  ⟨t.notes ++ r.notes, r.result.map (t :: ·)⟩

/-- Reads framed fields in turn; `last` is what comes after the last of them. -/
def ofFrames (last : Except ParseError (List Tag)) : List Frame → Report (List Tag)
  | [] => ⟨[], last⟩
  | f :: rest =>
    match f.tag with
    | .ok t => keep t (ofFrames last rest)
    | .error .skip => after [.skipped f.code f.payload.length] (ofFrames last rest)
    | .error e => ⟨[], .error e⟩

/-- Reads a stream of framed fields. Symbols that make up no whole field are an error, once the
fields before them are read. -/
def ofStream (stream : List Symbol) : Report (List Tag) :=
  ofFrames (if (Frame.split stream).2 = [] then .ok [] else .error (.malformed .fieldsCutShort))
    (Frame.split stream).1

end Report
end LightningInvoice
