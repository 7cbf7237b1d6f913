/-! The networks on which a payment request can be valid, and the letters with which a request for
each of them starts. -/
namespace LightningInvoice

inductive Network where
  | bitcoin
  | testnet
  | regtest
  | simnet
  | signet
  deriving DecidableEq

namespace Network

def all : List Network := [.bitcoin, .testnet, .regtest, .simnet, .signet]

theorem mem_all (n : Network) : n ∈ all := by
  cases n <;> decide

/-- The letters that open a request. -/
def lead : Network → List Char
  | .bitcoin => ['l', 'n', 'b', 'c']
  | .testnet => ['l', 'n', 't', 'b']
  | .regtest => ['l', 'n', 'b', 'c', 'r', 't']
  | .simnet => ['l', 'n', 's', 'b']
  | .signet => ['l', 'n', 't', 'b', 's']

def name (n : Network) : String := String.ofList n.lead

def ofLead? (text : List Char) : Option Network := all.find? fun n => n.lead == text

/-- The network with the most letters among those that open the text. -/
def opening? (text : List Char) : Option Network :=
  (all.filter fun n => n.lead.isPrefixOf text).maxOn? fun n => n.lead.length

end Network
end LightningInvoice
