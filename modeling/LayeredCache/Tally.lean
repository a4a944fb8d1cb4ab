import LayeredCache.Number.Binary

/-!
# Tally of far look-ups

The cache counts how many look-ups in the far tier found an entry and how many did not.

## Main definitions

* `Tally` — the two counts; `Tally.hit`, `Tally.miss`, `Tally.total`.
* `Tally.rate` — the part of the look-ups that found an entry, as a 64-bit float.
-/

set_option autoImplicit false

namespace LayeredCache

/-- How many far look-ups found an entry, and how many did not. -/
structure Tally where
  hits : Nat := 0
  misses : Nat := 0
  deriving DecidableEq, Repr

namespace Tally

/-- Counts a look-up that found an entry. -/
def hit (t : Tally) : Tally := { t with hits := t.hits + 1 }

/-- Counts a look-up that found none. -/
def miss (t : Tally) : Tally := { t with misses := t.misses + 1 }

/-- The number of look-ups. -/
def total (t : Tally) : Nat := t.hits + t.misses

/-- The bits of the quotient of hits and look-ups, both rounded to floats; zero when there were no
look-ups. -/
def rate (t : Tally) : Nat :=
  if t.total = 0 then 0
  else
    Binary.divide Binary.double (Binary.ofInt Binary.double t.hits)
      (Binary.ofInt Binary.double t.total)

/-- A tally as text. -/
def text (t : Tally) : String :=
  s!"StatsSnapshot \x7b hits: {t.hits}, misses: {t.misses} \x7d"

/-- A tally in one line, with the rate at two decimal places. -/
def summary (t : Tally) : String :=
  s!"hits={t.hits} misses={t.misses} hit_rate=" ++ Binary.fixedPoint Binary.double 2 t.rate

end Tally

end LayeredCache
