import LightningInvoice.Radix
import LightningInvoice.Regroup

/-!
Routing hints. A hop is 51 bytes: the node it starts from, the channel it takes, the fees for it
and the difference in expiry; a route is one hop after the other.
-/
namespace LightningInvoice

/-- One step of a route, over a channel that the payer may not know. -/
structure Hop where
  /-- The compressed key of the node at the start of the channel. -/
  node : Bytes 33
  channel : UInt64
  /-- The fee in millisatoshis for any payment. -/
  baseFee : UInt32
  /-- The fee in millionths of the amount. -/
  proportionalFee : UInt32
  /-- How much later the payment expires before this hop than after it. -/
  expiryDelta : UInt16
  deriving DecidableEq

namespace Hop

def ofBytes (bytes : Bytes 51) : Hop :=
  let part := fun start n (h : start + n ≤ 51) =>
    Bytes.slice bytes.toList start n (by rw [bytes.length_toList]; exact h)
  { node := part 0 33 (by decide)
    channel := UInt64.ofNat (part 33 8 (by decide)).number
    baseFee := UInt32.ofNat (part 41 4 (by decide)).number
    proportionalFee := UInt32.ofNat (part 45 4 (by decide)).number
    expiryDelta := UInt16.ofNat (part 49 2 (by decide)).number }

def bytes (hop : Hop) : List UInt8 :=
  hop.node.toList ++ (Bytes.ofNumber 8 hop.channel.toNat).toList ++
    (Bytes.ofNumber 4 hop.baseFee.toNat).toList ++
    (Bytes.ofNumber 4 hop.proportionalFee.toNat).toList ++
    (Bytes.ofNumber 2 hop.expiryDelta.toNat).toList

/-- Reads one or more hops out of the payload of a tagged field. -/
def listOfSymbols? (symbols : List Symbol) : Option (List Hop) :=
  match Bytes.pieces? 50 (pack .dropped symbols) with
  | some (piece :: more) => some ((piece :: more).map ofBytes)
  | _ => none

end Hop

/-- A channel number as text: the block, the transaction in it, and the output of that. -/
def channelText (channel : UInt64) : List Char :=
  Nat.toDigits 10 (channel >>> 40).toNat ++
    'x' :: Nat.toDigits 10 (channel >>> 16 &&& 0xffffff).toNat ++
    'x' :: Nat.toDigits 10 (channel &&& 0xffff).toNat

end LightningInvoice
