import LightningInvoice.Text.Utf8
import LightningInvoice.Text.Quoted

/-! Why a payment request, or a part of one, is not read, and the sentences that say so. -/
namespace LightningInvoice

/-- A departure from the layout of a payment request. -/
inductive Malformation where
  | missingSeparator
  | unknownNetwork
  | leadingZeroAmount
  | invalidAmount
  | unknownMultiplier (c : Char)
  | impreciseAmount
  /-- A number does not fit in 64 bits. -/
  | integerOverflow
  | shortData
  | fieldsCutShort
  | invalidDescription (fault : Utf8.Fault)
  | invalidRecoveryFlag (flag : UInt8)
  deriving DecidableEq

/-- Why a reader gives no value. -/
inductive ParseError where
  | malformed (reason : Malformation)
  | wrongChecksum
  | invalidCharacter (c : Char)
  | mixedCase
  | tooLong (length limit : Nat)
  /-- The payload of a tagged field has a form in which the field is passed over. -/
  | skip
  deriving DecidableEq

def Malformation.message : Malformation → String
  | .missingSeparator => "missing '1' separator"
  | .unknownNetwork => "unknown prefix"
  | .leadingZeroAmount => "amount has a leading zero"
  | .invalidAmount => "amount is not a decimal number"
  | .unknownMultiplier c => "unknown SI prefix " ++ Quoted.quote c
  | .impreciseAmount => "amount is not a whole number of millisatoshis"
  | .integerOverflow => "parsed integer doesn't fit into receiving type"
  | .shortData => "data part too short (should be at least 111 bech32 chars long)"
  | .fieldsCutShort => "tagged fields part ended unexpectedly"
  | .invalidDescription fault =>
    "Description is not a valid utf-8 string: " ++ fault.message
  | .invalidRecoveryFlag flag =>
    "recovery id " ++ toString flag.toNat ++ " is out of range (should be in [0,3])"

def ParseError.message : ParseError → String
  | .malformed reason => "malformed payment request: " ++ reason.message
  | .wrongChecksum => "invalid bech32 checksum"
  | .invalidCharacter c => "invalid bech32 character " ++ Quoted.quote c ++ " in data part"
  | .mixedCase => "payment request mixes upper and lower case"
  | .tooLong length limit =>
    "payment request is " ++ toString length ++ " bytes long, at most " ++ toString limit ++
      " are accepted"
  | .skip =>
    "the tagged field has to be skipped because of an unexpected, but allowed property"

end LightningInvoice
