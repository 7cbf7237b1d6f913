/-! Hexadecimal text: a byte is written as two lower-case digits, digits of either case are read,
and `toBytes?_ofBytes` is the round trip. -/
namespace LightningInvoice.Hex

def digits : List Char :=
  ['0', '1', '2', '3', '4', '5', '6', '7', '8', '9', 'a', 'b', 'c', 'd', 'e', 'f']

theorem length_digits : digits.length = 16 := rfl

def digit (v : BitVec 4) : Char := digits.get ⟨v.toNat, by rw [length_digits]; exact v.isLt⟩

def value? (c : Char) : Option (BitVec 4) :=
  (digits.idxOf? c.toLower).map (BitVec.ofNat 4)

theorem value?_digit (v : BitVec 4) : value? (digit v) = some v := by
  revert v; decide

/-- The upper and the lower half of a byte as digits. -/
def ofByte (b : UInt8) : List Char :=
  [digit (b.toBitVec.extractLsb' 4 4), digit (b.toBitVec.extractLsb' 0 4)]

def ofBytes (bytes : List UInt8) : List Char := bytes.flatMap ofByte

/-- Reads two digits of either case for each byte. -/
def toBytes? : List Char → Option (List UInt8)
  | [] => some []
  | [_] => none
  | upper :: lower :: rest =>
    match value? upper, value? lower, toBytes? rest with
    | some u, some l, some bytes => some (⟨u ++ l⟩ :: bytes)
    | _, _, _ => none

theorem halves_append (b : UInt8) :
    (⟨b.toBitVec.extractLsb' 4 4 ++ b.toBitVec.extractLsb' 0 4⟩ : UInt8) = b := by
  have h : ∀ v : BitVec 8, v.extractLsb' 4 4 ++ v.extractLsb' 0 4 = v := by decide
  exact congrArg UInt8.ofBitVec (h b.toBitVec)

theorem toBytes?_ofBytes (bytes : List UInt8) : toBytes? (ofBytes bytes) = some bytes := by
  induction bytes with
  | nil => rfl
  | cons b rest ih =>
    rw [show ofBytes (b :: rest) = digit (b.toBitVec.extractLsb' 4 4) ::
      digit (b.toBitVec.extractLsb' 0 4) :: ofBytes rest from rfl]
    simp only [toBytes?, value?_digit, ih, halves_append]

theorem ofBytes_injective {a b : List UInt8} (h : ofBytes a = ofBytes b) : a = b :=
  Option.some.inj (by rw [← toBytes?_ofBytes a, h, toBytes?_ofBytes b])

end LightningInvoice.Hex
