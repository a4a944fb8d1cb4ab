import LayeredCache.Bytes

/-!
# Bit streams

Compressed blocks hold bit streams over little-endian bytes. Table descriptions are read forwards,
from the lowest bit; symbols are read backwards, from the highest bit down, because the writer
worked in the opposite direction. The end of a backward stream is marked by its highest set bit.

## Main definitions

* `Zstandard.bitsAt` — some consecutive bits as a number; bits past the end count as zero.
* `Zstandard.BackwardBits` — a backward stream; `open?` finds its start and `take` reads bits.
-/

set_option autoImplicit false

namespace LayeredCache.Zstandard

/-- The number written by `count` bytes from index `first` on, least significant byte first. Bytes
past the end count as zero. -/
def wordAt (data : Array UInt8) (first : Nat) : (count : Nat) → Nat
  | 0 => 0
  | count + 1 => (data[first]?.getD 0).toNat + 256 * wordAt data (first + 1) count

/-- The `count` bits from bit `start` on as a number, the lowest bit first. -/
def bitsAt (data : Array UInt8) (start count : Nat) : Nat :=
  wordAt data (start / 8) ((start % 8 + count + 7) / 8) / Nat.pow 2 (start % 8) % Nat.pow 2 count

/-- A stream that is read from its highest bit down. -/
structure BackwardBits where
  data : Array UInt8
  /-- How many bits are left. -/
  left : Nat
  /-- Whether more bits were asked for than were left. -/
  overrun : Bool

namespace BackwardBits

/-- The stream over the given bytes. Its last byte must not be zero: the highest set bit ends the
stream and does not belong to it. -/
def open? (data : Array UInt8) : Option BackwardBits :=
  match data.back? with
  | none => none
  | some last =>
    if last = 0 then none
    else some ⟨data, 8 * (data.size - 1) + last.toNat.log2, false⟩

/-- The next `n` bits without taking them; bits that are not there count as zero. -/
def peek (s : BackwardBits) (n : Nat) : Nat :=
  if n ≤ s.left then bitsAt s.data (s.left - n) n
  else bitsAt s.data 0 s.left * Nat.pow 2 (n - s.left)

/-- Drops the next `n` bits. -/
def skip (s : BackwardBits) (n : Nat) : BackwardBits :=
  if n ≤ s.left then { s with left := s.left - n } else { s with left := 0, overrun := true }

/-- The next `n` bits and the stream after them. -/
def take (s : BackwardBits) (n : Nat) : Nat × BackwardBits :=
  (s.peek n, s.skip n)

/-- Whether all bits were taken and no more than these. -/
def isSpent (s : BackwardBits) : Bool := s.left == 0 && !s.overrun

end BackwardBits

end LayeredCache.Zstandard
