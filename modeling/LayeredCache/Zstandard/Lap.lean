import LayeredCache.Bytes

/-!
# What a match can copy

The output of a frame passes through a buffer that is filled from its beginning again and again.
One filling is a lap. A match copies from the lap under way or from the one before it, and no
further back. Where the lap under way has reached a place of the buffer again, its byte is found
there and no longer that of the lap before.

## Main definitions

* `Zstandard.Lap` — where the lap under way and the one before it start.
* `Zstandard.Lap.copy` — appends what a match copies, if it is within reach.

## Implementation notes

The whole output is kept, and a lap is described by two indices of it. When the buffer never has to
be filled again, there is one lap only, and everything that was produced can be copied.
-/

set_option autoImplicit false

namespace LayeredCache.Zstandard

/-- Where the lap under way and the one before it start in the output. -/
structure Lap where
  start : Nat
  before : Nat
  deriving DecidableEq, Repr

namespace Lap

/-- The first lap, which has none before it. -/
def first : Lap := ⟨0, 0⟩

/-- The lap that starts after the given number of bytes. -/
def next (l : Lap) (produced : Nat) : Lap := ⟨produced, l.start⟩

/-- What the buffer holds in the place of a byte of the lap before, named by its index in the
output. -/
def earlierByte (l : Lap) (output : Array UInt8) (index : Nat) : UInt8 :=
  let place := index - l.before
  let index := if place < output.size - l.start then l.start + place else index
  output[index]?.getD 0

/-- Appends `count` bytes, each a copy of the one `distance` places before it. -/
def copyRecent (output : Array UInt8) (distance : Nat) : (count : Nat) → Array UInt8
  | 0 => output
  | count + 1 =>
    copyRecent (output.push (output[output.size - distance]?.getD 0)) distance count

/-- Appends a match of `count` bytes that starts `distance` places back. What it takes from the lap
before is taken as the buffer was when the match started. -/
def copy (l : Lap) (output : Array UInt8) (distance count : Nat) : Option (Array UInt8) :=
  if distance = 0 || output.size - l.before < distance then none
  else
    let earlier := min (distance - (output.size - l.start)) count
    let bytes := (List.range earlier).map fun i =>
      l.earlierByte output (output.size - distance + i)
    some (copyRecent (output ++ bytes) distance (count - earlier))

end Lap

end LayeredCache.Zstandard
