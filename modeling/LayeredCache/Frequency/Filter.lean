import LayeredCache.Frequency.Doorkeeper

/-!
# Admission filter

The filter estimates how popular a hash is: the doorkeeper knows whether it was seen, the sketch
how often beyond that. After a fixed number of records every count is halved and the doorkeeper
forgets, so that the estimates follow recent popularity.

## Main definitions

* `Filter` — doorkeeper and sketch with the period after which they age.
* `Filter.record`, `Filter.estimate`.
-/

set_option autoImplicit false

namespace LayeredCache.Frequency

/-- A doorkeeper in front of a sketch; both age together. -/
structure Filter where
  sketch : CountMin
  doorkeeper : Doorkeeper
  /-- The number of records after which the filter ages. -/
  period : Nat
  /-- The number of records since it aged. -/
  recorded : Nat

namespace Filter

/-- A filter that saw nothing, with rows of at least `width` counters. -/
def new (width samples : Nat) : Filter :=
  let period := max samples 1
  ⟨CountMin.new width, Doorkeeper.new period, period, 0⟩

/-- Halves the counts, forgets who came and starts a new period. -/
def age (f : Filter) : Filter :=
  { f with sketch := f.sketch.halve, doorkeeper := f.doorkeeper.clear, recorded := 0 }

/-- Counts one access: the first of a hash at the door, each later one in the sketch. -/
def count (f : Filter) (hash : UInt64) : Filter :=
  match f.doorkeeper.insert hash with
  | (true, door) => { f with doorkeeper := door, sketch := f.sketch.increment hash }
  | (false, door) => { f with doorkeeper := door }

/-- Records one access to `hash`, and ages when the period is over. -/
def record (f : Filter) (hash : UInt64) : Filter :=
  let f := f.count hash
  let f := { f with recorded := f.recorded + 1 }
  if f.period ≤ f.recorded then f.age else f

/-- The estimated number of recent accesses to `hash`. -/
def estimate (f : Filter) (hash : UInt64) : Nat :=
  f.sketch.estimate hash + if f.doorkeeper.contains hash then 1 else 0

end Filter

end LayeredCache.Frequency
