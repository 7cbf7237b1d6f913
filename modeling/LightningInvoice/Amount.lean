import LightningInvoice.Error
import LightningInvoice.Radix

/-!
Amounts. A payment request gives its amount in bitcoin, as a decimal number with an optional
letter for a small fraction of a bitcoin; the value is a whole number of millisatoshis, each ten
picobitcoin.
-/
namespace LightningInvoice

/-- A fraction of a bitcoin in which an amount can be counted. -/
inductive Multiplier where
  | milli
  | micro
  | nano
  | pico
  deriving DecidableEq

namespace Multiplier

def letter : Multiplier → Char
  | .milli => 'm'
  | .micro => 'u'
  | .nano => 'n'
  | .pico => 'p'

/-- The number of picobitcoin that one unit stands for. -/
def picobitcoin : Multiplier → UInt64
  | .milli => 1000000000
  | .micro => 1000000
  | .nano => 1000
  | .pico => 1

/-- Reads a text of one letter, and names the first character of any other text. -/
def parse (text : List Char) : Except ParseError Multiplier :=
  match text with
  | ['m'] => .ok .milli
  | ['u'] => .ok .micro
  | ['n'] => .ok .nano
  | ['p'] => .ok .pico
  | _ => .error (.malformed (.unknownMultiplier (text.headD ' ')))

def rank : Multiplier → Nat
  | .milli => 0
  | .micro => 1
  | .nano => 2
  | .pico => 3

instance : Ord Multiplier := ⟨fun a b => compare a.rank b.rank⟩

end Multiplier

inductive Amount where
  | unspecified
  | msat (value : UInt64)
  deriving DecidableEq

namespace Amount

def picobitcoinPerBitcoin : UInt64 := 1000000000000

def msat? : Amount → Option UInt64
  | .unspecified => none
  | .msat value => some value

def digitValue (c : Char) : UInt8 := (c.toNat - '0'.toNat).toUInt8

/-- The amount of `digits` units of `unit` picobitcoin each. -/
def ofDigits (digits : List Char) (unit : UInt64) : Except ParseError Amount :=
  if digits.isEmpty || !digits.all Char.isDigit then .error (.malformed .invalidAmount)
  else if 1 < digits.length && digits.head? == some '0' then
    .error (.malformed .leadingZeroAmount)
  else
    match (Radix.value? 10 (digits.map digitValue)).bind (Checked.mul? · unit) with
    | none => .error (.malformed .integerOverflow)
    | some pico =>
      if pico % 10 == 0 then .ok (.msat (pico / 10)) else .error (.malformed .impreciseAmount)

/-- Reads the part of the head after the network: nothing, or a decimal number in bitcoin or in the
fraction of a last letter. -/
def parse (text : List Char) : Except ParseError Amount :=
  match text.getLast? with
  | none => .ok .unspecified
  | some last =>
    if last.isDigit then ofDigits text picobitcoinPerBitcoin
    else
      match Multiplier.parse [last] with
      | .error e => .error e
      | .ok m => ofDigits text.dropLast m.picobitcoin

end Amount
end LightningInvoice
