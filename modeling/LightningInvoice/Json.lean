import LightningInvoice.Text.Hex

/-! JSON values without fractions, signs, booleans and null, and their text without blanks. Members
of an object are written in the order in which they stand. -/
namespace LightningInvoice

inductive Json where
  | number (n : Nat)
  | string (s : String)
  | array (items : List Json)
  | object (members : List (String × Json))

namespace Json

/-- What stands for a character inside quotes. -/
def escape (c : Char) : List Char :=
  if c = '"' || c = '\\' then ['\\', c]
  else if c = '\x08' then ['\\', 'b']
  else if c = '\x0c' then ['\\', 'f']
  else if c = '\n' then ['\\', 'n']
  else if c = '\r' then ['\\', 'r']
  else if c = '\t' then ['\\', 't']
  else if c.toNat < 0x20 then '\\' :: 'u' :: '0' :: '0' :: Hex.ofByte c.toNat.toUInt8
  else [c]

def quote (text : List Char) : List Char := '"' :: text.flatMap escape ++ ['"']

mutual

def render : Json → List Char
  | .number n => Nat.toDigits 10 n
  | .string s => quote s.toList
  | .array [] => ['[', ']']
  | .array (item :: items) => '[' :: render item ++ renderItems items
  | .object [] => ['\x7b', '\x7d']
  | .object (member :: members) =>
    '\x7b' :: renderMember member ++ renderMembers members

/-- The later items of an array, up to its end. -/
def renderItems : List Json → List Char
  | [] => [']']
  | item :: items => ',' :: render item ++ renderItems items

def renderMember : String × Json → List Char
  | (name, value) => quote name.toList ++ ':' :: render value

/-- The later members of an object, up to its end. -/
def renderMembers : List (String × Json) → List Char
  | [] => ['\x7d']
  | member :: members => ',' :: renderMember member ++ renderMembers members

end

end Json
end LightningInvoice
