import LightningInvoice.Bytes
import LightningInvoice.Regroup
import LightningInvoice.Error

/-! The signature at the end of the data part: two numbers of 32 bytes and a flag that tells which
key they recover. It is read but not verified. -/
namespace LightningInvoice

structure Signature where
  r : Bytes 32
  s : Bytes 32
  recoveryFlag : UInt8
  deriving DecidableEq

namespace Signature

def width : Nat := 104

theorem length_pack_width {symbols : List Symbol} (h : symbols.length = width) :
    (pack .dropped symbols).length = 65 := by
  rw [length_pack_dropped, h, width]

/-- Reads the symbols of a signature, the recovery flag being at most three. -/
def ofSymbols (symbols : List Symbol) : Except ParseError Signature :=
  if h : symbols.length = width then
    let bytes := pack .dropped symbols
    have total : bytes.length = 65 := length_pack_width h
    let flag := bytes.get ⟨64, by omega⟩
    if 3 < flag then .error (.malformed (.invalidRecoveryFlag flag))
    else .ok ⟨.slice bytes 0 32 (by omega), .slice bytes 32 32 (by omega), flag⟩
  else .error (.malformed .shortData)

def symbols (sig : Signature) : List Symbol :=
  unpack (sig.r.toList ++ sig.s.toList ++ [sig.recoveryFlag])

end Signature
end LightningInvoice
