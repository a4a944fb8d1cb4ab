import Std.Data.HashMap

/-!
# Count-min sketch

A sketch estimates how often each hash was seen without keeping the hashes. It has four rows of
small saturating counters. A hash falls on one counter in each row and raises all four; the least
of the four is the estimate. Hashes that share a counter can only raise each other's estimate.
Halving every counter lets old popularity fade.

## Main definitions

* `powerFor` — the least power of two above a number.
* `spread` — mixes a hash with the seed of a row.
* `CountMin` — the sketch; `increment`, `estimate`, `halve`.

## Implementation notes

Only counters that were ever raised are kept in a table; every other counter is zero.
-/

set_option autoImplicit false

namespace LayeredCache.Frequency

/-- The least power of two that is at least `n`, for `n` above one. -/
def powerFor (n : Nat) : Nat := Nat.pow 2 ((n - 1).log2 + 1)

/-- Mixes a hash with a seed: a product by an odd constant whose high half is folded back. -/
def spread (hash seed : UInt64) : UInt64 :=
  let h := (hash ^^^ seed) * 0x9e3779b97f4a7c15
  h ^^^ (h >>> 31)

/-- The seed of the first row, which also serves the doorkeeper's second hash. -/
def firstSeed : UInt64 := 0xc3a5c85c97cb3127

/-- The rows with their seeds. -/
def rows : List (Nat × UInt64) :=
  [(0, firstSeed), (1, 0xb492b66fbe98f273), (2, 0x9ae16a3b2f90404f), (3, 0xcbf29ce484222325)]

/-- The greatest count that a counter holds. -/
def countLimit : Nat := 15

/-- Four rows of saturating counters. -/
structure CountMin where
  /-- The number of counters in a row. -/
  width : Nat
  /-- The counters that were raised, by place. -/
  counters : Std.HashMap Nat Nat

namespace CountMin

/-- The width of the rows of a sketch that asks for `wanted` counters in each: a power of two, at
least sixteen. -/
def widthFor (wanted : Nat) : Nat := powerFor (max wanted 16)

/-- A sketch without counts. -/
def new (wanted : Nat) : CountMin := ⟨widthFor wanted, ∅⟩

/-- The count at a place. -/
def count (s : CountMin) (place : Nat) : Nat := s.counters.getD place 0

/-- The place of the counter on which `hash` falls in a row with the given seed. -/
def place (s : CountMin) (hash : UInt64) (row : Nat) (seed : UInt64) : Nat :=
  row * s.width + (spread hash seed).toNat % s.width

/-- The places of the counters on which `hash` falls, one in each row. -/
def places (s : CountMin) (hash : UInt64) : List Nat :=
  rows.map fun (row, seed) => s.place hash row seed

/-- Raises the counter at a place unless it is at its greatest. -/
def raise (s : CountMin) (place : Nat) : CountMin :=
  if s.count place < countLimit then
    { s with counters := s.counters.insert place (s.count place + 1) }
  else s

/-- Counts `hash` once. -/
def increment (s : CountMin) (hash : UInt64) : CountMin :=
  (s.places hash).foldl raise s

/-- How often `hash` was counted, or more. -/
def estimate (s : CountMin) (hash : UInt64) : Nat :=
  ((s.places hash).map s.count).foldl min countLimit

/-- Halves every counter, rounding down. -/
def halve (s : CountMin) : CountMin :=
  { s with counters := s.counters.map fun _ c => c / 2 }

end CountMin

end LayeredCache.Frequency
