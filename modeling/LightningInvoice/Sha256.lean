import LightningInvoice.Bytes
import LightningInvoice.Text.Utf8

/-! The SHA-256 hash. The message is filled up to whole blocks of 64 bytes; each block is spread
over a schedule of 64 words, and the words are mixed into a state of eight words one by one. -/
namespace LightningInvoice.Sha256

structure State where
  a : UInt32
  b : UInt32
  c : UInt32
  d : UInt32
  e : UInt32
  f : UInt32
  g : UInt32
  h : UInt32

/-- The state before the first block: the fractions of the square roots of the first eight
primes. -/
def start : State :=
  ⟨0x6a09e667, 0xbb67ae85, 0x3c6ef372, 0xa54ff53a, 0x510e527f, 0x9b05688c, 0x1f83d9ab, 0x5be0cd19⟩

/-- The constant of each round: the fractions of the cube roots of the first 64 primes. -/
def roundConstants : List UInt32 :=
  [0x428a2f98, 0x71374491, 0xb5c0fbcf, 0xe9b5dba5, 0x3956c25b, 0x59f111f1, 0x923f82a4, 0xab1c5ed5,
   0xd807aa98, 0x12835b01, 0x243185be, 0x550c7dc3, 0x72be5d74, 0x80deb1fe, 0x9bdc06a7, 0xc19bf174,
   0xe49b69c1, 0xefbe4786, 0x0fc19dc6, 0x240ca1cc, 0x2de92c6f, 0x4a7484aa, 0x5cb0a9dc, 0x76f988da,
   0x983e5152, 0xa831c66d, 0xb00327c8, 0xbf597fc7, 0xc6e00bf3, 0xd5a79147, 0x06ca6351, 0x14292967,
   0x27b70a85, 0x2e1b2138, 0x4d2c6dfc, 0x53380d13, 0x650a7354, 0x766a0abb, 0x81c2c92e, 0x92722c85,
   0xa2bfe8a1, 0xa81a664b, 0xc24b8b70, 0xc76c51a3, 0xd192e819, 0xd6990624, 0xf40e3585, 0x106aa070,
   0x19a4c116, 0x1e376c08, 0x2748774c, 0x34b0bcb5, 0x391c0cb3, 0x4ed8aa4a, 0x5b9cca4f, 0x682e6ff3,
   0x748f82ee, 0x78a5636f, 0x84c87814, 0x8cc70208, 0x90befffa, 0xa4506ceb, 0xbef9a3f7, 0xc67178f2]

/-- A word turned to the right by `n` bits, for `n` from 1 to 31. -/
def rotate (w n : UInt32) : UInt32 := w >>> n ||| w <<< (32 - n)

def smallSigma0 (w : UInt32) : UInt32 := rotate w 7 ^^^ rotate w 18 ^^^ w >>> 3

def smallSigma1 (w : UInt32) : UInt32 := rotate w 17 ^^^ rotate w 19 ^^^ w >>> 10

def bigSigma0 (w : UInt32) : UInt32 := rotate w 2 ^^^ rotate w 13 ^^^ rotate w 22

def bigSigma1 (w : UInt32) : UInt32 := rotate w 6 ^^^ rotate w 11 ^^^ rotate w 25

def choose (x y z : UInt32) : UInt32 := (x &&& y) ^^^ (~~~x &&& z)

def majority (x y z : UInt32) : UInt32 := (x &&& y) ^^^ (x &&& z) ^^^ (y &&& z)

def round (s : State) (word constant : UInt32) : State :=
  let mixed := s.h + bigSigma1 s.e + choose s.e s.f s.g + constant + word
  ⟨mixed + bigSigma0 s.a + majority s.a s.b s.c, s.a, s.b, s.c, s.d + mixed, s.e, s.f, s.g⟩

def State.add (s t : State) : State :=
  ⟨s.a + t.a, s.b + t.b, s.c + t.c, s.d + t.d, s.e + t.e, s.f + t.f, s.g + t.g, s.h + t.h⟩

/-- The four bytes of a word, the most significant one first. -/
def wordBytes (w : UInt32) : List UInt8 :=
  [(w >>> 24).toUInt8, (w >>> 16).toUInt8, (w >>> 8).toUInt8, w.toUInt8]

/-- The words of a list of bytes, the most significant byte first. -/
def words : List UInt8 → List UInt32
  | a :: b :: c :: d :: rest =>
    (a.toUInt32 <<< 24 ||| b.toUInt32 <<< 16 ||| c.toUInt32 <<< 8 ||| d.toUInt32) :: words rest
  | _ => []

/-- Extends a schedule, the latest word first, by `n` words. -/
def extend (latestFirst : List UInt32) : Nat → List UInt32
  | 0 => latestFirst
  | n + 1 =>
    let word := smallSigma1 (latestFirst.getD 1 0) + latestFirst.getD 6 0 +
      smallSigma0 (latestFirst.getD 14 0) + latestFirst.getD 15 0
    extend (word :: latestFirst) n

/-- The 64 words that a block of 64 bytes is spread over. -/
def schedule (block : List UInt8) : List UInt32 := (extend (words block).reverse 48).reverse

def absorb (s : State) (block : List UInt8) : State :=
  s.add (((schedule block).zip roundConstants).foldl (fun t w => round t w.1 w.2) s)

/-- The low eight bytes of a number, the most significant one first. -/
def lengthBytes (n : Nat) : List UInt8 := (List.range 8).map fun i => (n >>> (56 - 8 * i)).toUInt8

/-- The message with a one bit, zeros, and its length in bits in the last eight bytes. -/
def padded (message : List UInt8) : List UInt8 :=
  message ++ 0x80 :: List.replicate ((119 - message.length % 64) % 64) 0 ++
    lengthBytes (message.length * 8)

def absorbAll (s : State) (bytes : List UInt8) : State :=
  if 64 ≤ bytes.length then absorbAll (absorb s (bytes.take 64)) (bytes.drop 64) else s
termination_by bytes.length
decreasing_by simp only [List.length_drop]; omega

def State.bytes (s : State) : Bytes 32 :=
  ⟨wordBytes s.a ++ wordBytes s.b ++ wordBytes s.c ++ wordBytes s.d ++ wordBytes s.e ++
    wordBytes s.f ++ wordBytes s.g ++ wordBytes s.h, rfl⟩

def hash (message : List UInt8) : Bytes 32 := (absorbAll start (padded message)).bytes

def isHashOf (expected : Bytes 32) (text : List Char) : Bool := hash (Utf8.encode text) == expected

end LightningInvoice.Sha256
