import LayeredCache.Bytes

/-!
# The content checksum of zstd frames

A frame may end with the low half of the 64-bit xxHash of its content. The hash mixes stripes of
32 bytes in four lanes, then what is left in words of eight, four and one byte, and spreads the
result over all bits.

## Main definitions

* `Zstandard.checksum` — the 32-bit checksum of a byte string.
-/

set_option autoImplicit false

namespace LayeredCache.Zstandard

namespace Checksum

/-- The first multiplier. -/
def prime1 : UInt64 := 0x9e3779b185ebca87
/-- The second multiplier. -/
def prime2 : UInt64 := 0xc2b2ae3d27d4eb4f
/-- The third multiplier. -/
def prime3 : UInt64 := 0x165667b19e3779f9
/-- The fourth multiplier. -/
def prime4 : UInt64 := 0x85ebca77c2b2ae63
/-- The fifth multiplier. -/
def prime5 : UInt64 := 0x27d4eb2f165667c5

/-- Rotation to the left by `n` bits, for `n` from 1 to 63. -/
def rotateLeft (x n : UInt64) : UInt64 := (x <<< n) ||| (x >>> (64 - n))

/-- Mixes a word into a lane. -/
def mix (lane word : UInt64) : UInt64 := rotateLeft (lane + word * prime2) 31 * prime1

/-- The first `n` bytes as a word, least significant byte first, and the rest. -/
def word (n : Nat) (bs : Bytes) : UInt64 × Bytes :=
  (UInt64.ofNat (Bytes.ofLittleEndian (bs.take n)), bs.drop n)

/-- The four lanes. -/
structure Lanes where
  first : UInt64
  second : UInt64
  third : UInt64
  fourth : UInt64

/-- The lanes before any stripe. -/
def Lanes.initial : Lanes := ⟨prime1 + prime2, prime2, 0, 0 - prime1⟩

/-- Mixes `n` stripes of 32 bytes into the lanes. -/
def Lanes.stripes (lanes : Lanes) : (n : Nat) → Bytes → Lanes × Bytes
  | 0, bs => (lanes, bs)
  | n + 1, bs =>
    let (a, bs) := word 8 bs
    let (b, bs) := word 8 bs
    let (c, bs) := word 8 bs
    let (d, bs) := word 8 bs
    Lanes.stripes
      ⟨mix lanes.first a, mix lanes.second b, mix lanes.third c, mix lanes.fourth d⟩ n bs

/-- Merges a lane into the hash. -/
def merge (hash lane : UInt64) : UInt64 := (hash ^^^ mix 0 lane) * prime1 + prime4

/-- The lanes joined into one word. -/
def Lanes.join (l : Lanes) : UInt64 :=
  let sum := rotateLeft l.first 1 + rotateLeft l.second 7 + rotateLeft l.third 12 +
    rotateLeft l.fourth 18
  merge (merge (merge (merge sum l.first) l.second) l.third) l.fourth

/-- Mixes `n` words of eight bytes into the hash. -/
def words (hash : UInt64) : (n : Nat) → Bytes → UInt64 × Bytes
  | 0, bs => (hash, bs)
  | n + 1, bs =>
    let (w, bs) := word 8 bs
    words (rotateLeft (hash ^^^ mix 0 w) 27 * prime1 + prime4) n bs

/-- Mixes single bytes into the hash. -/
def singles (hash : UInt64) (bs : Bytes) : UInt64 :=
  bs.foldl (fun h b => rotateLeft (h ^^^ b.toUInt64 * prime5) 11 * prime1) hash

/-- Spreads the hash over all bits. -/
def spread (h : UInt64) : UInt64 :=
  let h := (h ^^^ (h >>> 33)) * prime2
  let h := (h ^^^ (h >>> 29)) * prime3
  h ^^^ (h >>> 32)

/-- The 64-bit hash of a byte string. -/
def hash (bs : Bytes) : UInt64 :=
  let size := bs.length
  let (start, rest) :=
    if 32 ≤ size then
      let (lanes, rest) := Lanes.initial.stripes (size / 32) bs
      (lanes.join, rest)
    else (prime5, bs)
  let (h, rest) := words (start + UInt64.ofNat size) (rest.length / 8) rest
  let (h, rest) :=
    if 4 ≤ rest.length then
      let (w, rest) := word 4 rest
      (rotateLeft (h ^^^ w * prime1) 23 * prime2 + prime3, rest)
    else (h, rest)
  spread (singles h rest)

end Checksum

/-- The checksum of a frame's content: the low half of its hash. -/
def checksum (bs : Bytes) : Nat := (Checksum.hash bs).toNat % 0x100000000

end LayeredCache.Zstandard
