import LightningInvoice.Text.Unprintable
import LightningInvoice.Text.Extending

/-! A character in single quotes, as it stands in an error message: characters that would not show
are written by their code. -/
namespace LightningInvoice.Quoted

def within (runs : List (Nat × Nat)) (code : Nat) : Bool :=
  runs.any fun run => run.1 ≤ code && code ≤ run.2

/-- Whether a character shows as itself when it stands alone. -/
def visible (c : Char) : Bool := !(within Extending.runs c.toNat || within Unprintable.runs c.toNat)

/-- A character by its code, in lower-case hexadecimal digits without leading zeros. -/
def byCode (c : Char) : List Char :=
  '\\' :: 'u' :: '\x7b' :: Nat.toDigits 16 c.toNat ++ ['\x7d']

/-- The text that stands for a character between quotes. -/
def escape (c : Char) : List Char :=
  if c = '\x00' then ['\\', '0']
  else if c = '\t' then ['\\', 't']
  else if c = '\r' then ['\\', 'r']
  else if c = '\n' then ['\\', 'n']
  else if c = '\x27' || c = '\\' then ['\\', c]
  else if visible c then [c]
  else byCode c

def quote (c : Char) : String := String.ofList ('\x27' :: escape c ++ ['\x27'])

end LightningInvoice.Quoted
