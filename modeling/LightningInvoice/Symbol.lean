/-! Five-bit symbols and their thirty-two characters. Reading takes either letter case, writing
gives lower case, and `ofChar?_toChar` shows that a written symbol reads back. -/
namespace LightningInvoice

/-- Five bits, the unit in which the data part of a payment request is written. -/
abbrev Symbol := BitVec 5

namespace Symbol

/-- The character of each symbol, in ascending order of the symbols. -/
def alphabet : List Char :=
  ['q', 'p', 'z', 'r', 'y', '9', 'x', '8', 'g', 'f', '2', 't', 'v', 'd', 'w', '0',
   's', '3', 'j', 'n', '5', '4', 'k', 'h', 'c', 'e', '6', 'm', 'u', 'a', '7', 'l']

theorem length_alphabet : alphabet.length = 32 := rfl

def least : Symbol := 0

def greatest : Symbol := 31

def ofByte (b : UInt8) : Symbol := b.toBitVec.setWidth 5

def toByte (s : Symbol) : UInt8 := ⟨s.setWidth 8⟩

def toChar (s : Symbol) : Char :=
  alphabet.get ⟨s.toNat, by rw [length_alphabet]; exact s.isLt⟩

/-- The symbol that a character of either case stands for. -/
def ofChar? (c : Char) : Option Symbol :=
  (alphabet.idxOf? c.toLower).map (BitVec.ofNat 5)

theorem ofChar?_toChar (s : Symbol) : ofChar? (toChar s) = some s := by
  revert s; decide

theorem toLower_toChar (s : Symbol) : (toChar s).toLower = toChar s := by
  revert s; decide

def text (symbols : List Symbol) : List Char := symbols.map toChar

/-- Reads characters as symbols, or gives the first character that is none. -/
def ofText : List Char → Except Char (List Symbol)
  | [] => .ok []
  | c :: rest =>
    match ofChar? c with
    | none => .error c
    | some s => (ofText rest).map (s :: ·)

theorem ofText_text (symbols : List Symbol) : ofText (text symbols) = .ok symbols := by
  induction symbols with
  | nil => rfl
  | cons s rest ih =>
    simp only [text, List.map_cons, ofText, ofChar?_toChar] at ih ⊢
    simp [ih, Except.map]

def refusal (c : Char) : String := "Invalid character (" ++ c.toString ++ ")"

end Symbol
end LightningInvoice
