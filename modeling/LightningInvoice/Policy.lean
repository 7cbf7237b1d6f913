import LightningInvoice.Error

/-! What a reader of payment requests refuses before it looks at the layout. -/
namespace LightningInvoice

/-- Demands on the text of a request; by default there are none. -/
structure Policy where
  /-- Whether letters of both cases in one request are refused. -/
  rejectMixedCase : Bool := false
  /-- The greatest number of bytes in a request. -/
  maxLength : Option Nat := none
  deriving DecidableEq

namespace Policy

def strict (limit : Nat) : Policy := ⟨true, some limit⟩

def isMixed (text : List Char) : Bool := text.any Char.isLower && text.any Char.isUpper

def tooLong? (policy : Policy) (request : List Char) : Option ParseError :=
  let length := (Utf8.encode request).length
  policy.maxLength.bind fun limit => if limit < length then some (.tooLong length limit) else none

def mixedCase? (policy : Policy) (request : List Char) : Option ParseError :=
  if policy.rejectMixedCase && isMixed request then some .mixedCase else none

/-- The error of the first demand that a request breaks, its length being looked at first. -/
def violation? (policy : Policy) (request : List Char) : Option ParseError :=
  (policy.tooLong? request).or (policy.mixedCase? request)

end Policy
end LightningInvoice
