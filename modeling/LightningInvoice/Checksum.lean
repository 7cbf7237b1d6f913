import LightningInvoice.Symbol
import LightningInvoice.Text.Utf8

/-!
The checksum of a payment request: six symbols, chosen so that the remainder of the whole message,
head and data, is one. The remainder is a polynomial of degree five over the symbols, kept as
thirty bits.
-/
namespace LightningInvoice.Checksum

/-- A remainder: six coefficients of five bits, the leading one first. -/
abbrev Remainder := BitVec 30

/-- What each bit of the leading coefficient adds when that coefficient is shifted out, the lowest
bit first. -/
def generators : List Remainder :=
  [0x3b6a57b2, 0x26508e6d, 0x1ea119fa, 0x3d4233dd, 0x2a1462b3]

def feedback (c : Remainder) : Remainder :=
  (generators.zipIdx.map fun (g, i) => if c.getLsbD (25 + i) then g else 0).foldl (· ^^^ ·) 0

def step (c : Remainder) (s : Symbol) : Remainder := c <<< 5 ^^^ s.setWidth 30 ^^^ feedback c

def remainder (message : List Symbol) : Remainder := message.foldl step 1

/-- The remainder that a message with its checksum has. -/
def target : Remainder := 1

def width : Nat := 6

/-- The symbols that a head contributes: the upper three bits of each byte, a zero, and the lower
five bits of each byte. -/
def expand (head : List Char) : List Symbol :=
  (Utf8.encode head).map (fun b : UInt8 => Symbol.ofByte (b >>> 5)) ++
    Symbol.least :: (Utf8.encode head).map Symbol.ofByte

/-- Whether the last six of the symbols are the checksum of the ones before. -/
def verify (head : List Char) (data : List Symbol) : Bool :=
  remainder (expand head ++ data) == target

def coefficients (c : Remainder) : List Symbol :=
  (List.range width).map fun i => c.extractLsb' (5 * (width - 1 - i)) 5

def create (head : List Char) (data : List Symbol) : List Symbol :=
  coefficients (remainder (expand head ++ data ++ List.replicate width Symbol.least) ^^^ target)

end LightningInvoice.Checksum
