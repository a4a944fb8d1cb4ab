import LayeredCache.Eviction.Slab

/-!
# Admission by popularity, on plain lists

The policy of the bounded map, said on three lists of entries with the most recent first. Nothing
is linked and nothing is reused here: an entry is hit by moving it to the front of a list, and an
entry is dropped by leaving it out.

## Main definitions

* `Ranked` — the three lists with their capacities and the filter.
* `Ranked.get`, `Ranked.peek`, `Ranked.contains`, `Ranked.insert`, `Ranked.remove` — the
  operations, with the answers that `Slab` gives.
-/

set_option autoImplicit false

namespace LayeredCache.Eviction

open LayeredCache.Frequency

/-- Three recency lists, most recent first. -/
structure Ranked (V : Type) where
  window : List (String × V)
  probation : List (String × V)
  guarded : List (String × V)
  windowCapacity : Nat
  guardedCapacity : Nat
  mainCapacity : Nat
  filter : Filter
  hash : String → UInt64

namespace Ranked

variable {V : Type}

/-- No entries, with the capacities and the filter of an empty slab. -/
def empty (hash : String → UInt64) (size samples : Nat) : Ranked V :=
  let size := max size 1
  let samples := max samples size
  let main := size - Slab.windowShare size
  ⟨[], [], [], Slab.windowShare size, main * 8 / 10, main, Filter.new samples samples, hash⟩

/-- The entry of a list under a key. -/
def find? (key : String) (entries : List (String × V)) : Option (String × V) :=
  entries.find? fun e => e.1 == key

/-- A list without its entry under a key. -/
def without (key : String) (entries : List (String × V)) : List (String × V) :=
  entries.filter fun e => e.1 != key

/-- All entries. -/
def entries (r : Ranked V) : List (String × V) := r.window ++ r.probation ++ r.guarded

/-- The number of entries. -/
def size (r : Ranked V) : Nat := r.entries.length

/-- The value under a key; no trace is left. -/
def peek (r : Ranked V) (key : String) : Option V := (find? key r.entries).map (·.2)

/-- Whether there is an entry under a key. -/
def contains (r : Ranked V) (key : String) : Bool := (r.peek key).isSome

/-- Records an access to a key in the filter. -/
def record (r : Ranked V) (key : String) : Ranked V :=
  { r with filter := r.filter.record (r.hash key) }

/-- Sends the least recent guarded entry back on probation when too many are guarded. -/
def demote (r : Ranked V) : Ranked V :=
  if r.guardedCapacity < r.guarded.length then
    match r.guarded.getLast? with
    | some e => { r with guarded := r.guarded.dropLast, probation := e :: r.probation }
    | none => r
  else r

/-- Refreshes the entry under a key and gives it the value `value`. -/
def touch (r : Ranked V) (key : String) (value : V) : Ranked V :=
  if (find? key r.window).isSome then
    { r with window := (key, value) :: without key r.window }
  else if (find? key r.guarded).isSome then
    { r with guarded := (key, value) :: without key r.guarded }
  else
    demote { r with
      probation := without key r.probation
      guarded := (key, value) :: r.guarded }

/-- Looks a key up, records the access and refreshes the entry. -/
def get (r : Ranked V) (key : String) : Option V × Ranked V :=
  let r := r.record key
  match r.peek key with
  | some value => (some value, r.touch key value)
  | none => (none, r)

/-- Lets a candidate onto probation when the main part has room. When it has none, the candidate
takes the place of the least recent entry on probation if the filter finds it more popular, and is
dropped otherwise. -/
def contend (r : Ranked V) (candidate : String × V) : Option (String × V) × Ranked V :=
  if r.probation.length + r.guarded.length < r.mainCapacity then
    (none, { r with probation := candidate :: r.probation })
  else
    match r.probation.getLast? with
    | none => (some candidate, r)
    | some victim =>
      if r.filter.estimate (r.hash victim.1) < r.filter.estimate (r.hash candidate.1) then
        (some victim, { r with probation := candidate :: r.probation.dropLast })
      else (some candidate, r)

/-- Puts an entry under a key; gives back the entry that was dropped to make room. -/
def insert (r : Ranked V) (key : String) (value : V) : Option (String × V) × Ranked V :=
  if r.contains key then (none, r.touch key value)
  else
    let r := r.record key
    let r := { r with window := (key, value) :: r.window }
    if r.window.length ≤ r.windowCapacity then (none, r)
    else
      match r.window.getLast? with
      | some candidate => { r with window := r.window.dropLast }.contend candidate
      | none => (none, r)

/-- Removes a key and gives back its value. -/
def remove (r : Ranked V) (key : String) : Option V × Ranked V :=
  (r.peek key, { r with
    window := without key r.window
    probation := without key r.probation
    guarded := without key r.guarded })

end Ranked

end LayeredCache.Eviction
