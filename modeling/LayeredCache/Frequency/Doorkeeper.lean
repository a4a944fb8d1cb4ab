import LayeredCache.Frequency.CountMin
import Std.Data.HashSet

/-!
# Doorkeeper

A Bloom filter stands in front of the sketch and absorbs the first access to every hash, so that
what is seen only once never reaches the counters. A hash sets three bits; a hash whose three bits
are set is taken to be known.

## Main definitions

* `Doorkeeper` — the filter; `insert`, `contains`, `clear`.
* `Doorkeeper.bit` — the position of a hash's bit in one of three rounds.
-/

set_option autoImplicit false

namespace LayeredCache.Frequency

/-- A Bloom filter with three bits for each hash. -/
structure Doorkeeper where
  /-- The number of bits. -/
  size : Nat
  /-- The positions of the bits that are set. -/
  bits : Std.HashSet Nat

namespace Doorkeeper

/-- The number of bits for `expected` hashes: a power of two, at least eight for each hash and
for at least sixty-four hashes. -/
def sizeFor (expected : Nat) : Nat := powerFor (max expected 64 * 8)

/-- A filter without hashes. -/
def new (expected : Nat) : Doorkeeper := ⟨sizeFor expected, ∅⟩

/-- The position of a hash's bit in a round: the hash itself, moved on by an odd step once for
every earlier round. -/
def bit (d : Doorkeeper) (hash : UInt64) (round : UInt64) : Nat :=
  (hash + round * (spread hash firstSeed ||| 1)).toNat % d.size

/-- The positions of a hash's bits, round by round. -/
def positions (d : Doorkeeper) (hash : UInt64) : List Nat :=
  [d.bit hash 0, d.bit hash 1, d.bit hash 2]

/-- Sets the bit at a position and remembers whether all bits so far had been set before. -/
def setBit (known : Bool × Doorkeeper) (position : Nat) : Bool × Doorkeeper :=
  if known.2.bits.contains position then known
  else (false, { known.2 with bits := known.2.bits.insert position })

/-- Sets a hash's bits; the flag says whether all of them had been set before. -/
def insert (d : Doorkeeper) (hash : UInt64) : Bool × Doorkeeper :=
  (d.positions hash).foldl setBit (true, d)

/-- Whether all of a hash's bits are set. -/
def contains (d : Doorkeeper) (hash : UInt64) : Bool :=
  (d.positions hash).all d.bits.contains

/-- Forgets every hash. -/
def clear (d : Doorkeeper) : Doorkeeper := { d with bits := ∅ }

end Doorkeeper

end LayeredCache.Frequency
