import LightningInvoice.Network
import LightningInvoice.Amount

/-! The head of a payment request: the letters of its network, followed by the amount. -/
namespace LightningInvoice

/-- What the head of a payment request says. -/
structure HumanReadable where
  network : Network
  amount : Amount
  deriving DecidableEq

namespace Network

/-- Reads the letters of a network, and nothing more. -/
def parse (text : List Char) : Except ParseError Network :=
  match ofLead? text with
  | some n => .ok n
  | none => .error (.malformed .unknownNetwork)

end Network

/-- Reads a head. The network is the one with the most letters that open it. -/
def HumanReadable.parse (text : List Char) : Except ParseError HumanReadable :=
  match Network.opening? text with
  | none => .error (.malformed .unknownNetwork)
  | some network =>
    match Amount.parse (text.drop network.lead.length) with
    | .ok amount => .ok ⟨network, amount⟩
    | .error e => .error e

end LightningInvoice
