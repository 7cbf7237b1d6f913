import LightningInvoice.Text.Padded

/-! Lines of a log and how weighty they are. -/
namespace LightningInvoice.Log

inductive Level where
  | trace
  | debug
  | info
  | warn
  | error
  deriving DecidableEq

namespace Level

def all : List Level := [.trace, .debug, .info, .warn, .error]

def rank : Level → Nat
  | .trace => 0
  | .debug => 1
  | .info => 2
  | .warn => 3
  | .error => 4

instance : Ord Level := ⟨fun a b => compare a.rank b.rank⟩

/-- The level with which every line is let through. -/
def mostVerbose : Level := .trace

def name : Level → List Char
  | .trace => ['T', 'R', 'A', 'C', 'E']
  | .debug => ['D', 'E', 'B', 'U', 'G']
  | .info => ['I', 'N', 'F', 'O']
  | .warn => ['W', 'A', 'R', 'N']
  | .error => ['E', 'R', 'R', 'O', 'R']

def ofName? (word : List Char) : Option Level := all.find? fun level => level.name == word

def inColumn (level : Level) (column : Padded.Column) : List Char := column.fit level.name

end Level

structure Line where
  level : Level
  message : String
  deriving DecidableEq

def atLeast (least : Level) (lines : List Line) : List Line :=
  lines.filter fun line => least.rank ≤ line.level.rank

/-- A line together with the place it comes from. -/
structure Record where
  line : Line
  place : String
  position : Nat
  deriving DecidableEq

/-- A record as it is written out, its level in a column of five. -/
def Record.text (r : Record) : String :=
  String.ofList (r.line.level.inColumn ⟨some 5, none, .left⟩) ++ " [" ++ r.place ++ ":" ++
    toString r.position ++ "] " ++ r.line.message

end LightningInvoice.Log
