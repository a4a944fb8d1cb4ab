import LayeredCache.Frequency.Filter

/-!
# A bounded map with admission by popularity

The map holds a bounded number of entries in three segments, each ordered by recency. A new key
enters the small *window*. When the window overflows, its least recent key is a candidate for the
main part: it enters *probation* when the main part has room, takes the place of the least recent
key on probation when the filter finds it more popular, and is dropped otherwise. A key that is
hit on probation becomes *guarded*; when too many are guarded, the least recent of them goes back
on probation.

## Main definitions

* `Slab` — the map; its nodes live in slots and are linked by slot number.
* `Slab.get`, `Slab.peek`, `Slab.contains`, `Slab.insert`, `Slab.remove` — the operations.
* `Slab.new` — an empty map, when tables of the wanted sizes can be addressed.

## Implementation notes

A slot is freed by its node's removal and reused before the slab grows, the one freed last first.
Accesses are recorded in the filter by `get`, hit or miss, and by the insertion of a new key. The
hash function is a parameter of the map.
-/

set_option autoImplicit false

namespace LayeredCache.Eviction

open LayeredCache.Frequency

/-- The segments of the map. -/
inductive Segment where
  | window | probation | guarded
  deriving DecidableEq, Repr

/-- The neighbours of a node, its segment and its key's hash. -/
structure Link where
  prev : Option Nat := none
  next : Option Nat := none
  segment : Segment := .window
  hash : UInt64 := 0
  deriving DecidableEq, Repr

/-- The ends of a segment's list: the head is the most recent node, the tail the least recent. -/
structure Queue where
  head : Option Nat := none
  tail : Option Nat := none
  length : Nat := 0
  capacity : Nat
  deriving DecidableEq, Repr

/-- A bounded map from texts to `V`. -/
structure Slab (V : Type) where
  /-- The slot of each key. -/
  index : Std.HashMap String Nat
  /-- The entries; a free slot is empty. -/
  slots : Array (Option (String × V))
  /-- The links of the slots. -/
  links : Array Link
  /-- The free slots, the one freed last first. -/
  free : List Nat
  window : Queue
  probation : Queue
  guarded : Queue
  /-- The number of entries outside the window. -/
  mainCapacity : Nat
  filter : Filter
  hash : String → UInt64

namespace Slab

variable {V : Type}

/-! ## Sizes -/

/-- The greatest number of entries for which an index can be addressed. -/
def sizeLimit : Nat := 0x100000000000000

/-- The greatest number of samples for which a filter can be addressed. -/
def sampleLimit : Nat := 0x1000000000000000

/-- The window's share of `size` entries: a hundredth, and at least one. -/
def windowShare (size : Nat) : Nat := max (size / 100) 1

/-- An empty map for at most `size` entries, whose filter ages after `samples` records and never
before as many records as there are entries. -/
def empty (hash : String → UInt64) (size samples : Nat) : Slab V :=
  let size := max size 1
  let samples := max samples size
  let main := size - windowShare size
  let guarded := main * 8 / 10
  { index := ∅, slots := #[], links := #[], free := []
    window := ⟨none, none, 0, windowShare size⟩
    probation := ⟨none, none, 0, main - guarded⟩
    guarded := ⟨none, none, 0, guarded⟩
    mainCapacity := main
    filter := Filter.new samples samples
    hash := hash }

/-- An empty map, or nothing when its tables cannot be addressed. -/
def new (hash : String → UInt64) (size samples : Nat) : Option (Slab V) :=
  if size ≤ sizeLimit ∧ samples ≤ sampleLimit then some (empty hash size samples) else none

/-- The number of entries. -/
def size (s : Slab V) : Nat := s.index.size

/-- Whether there is no entry. -/
def isEmpty (s : Slab V) : Bool := s.index.isEmpty

/-- The greatest number of entries. -/
def capacity (s : Slab V) : Nat := s.window.capacity + s.mainCapacity

/-! ## Lists of nodes -/

/-- The list of a segment. -/
def queue (s : Slab V) : Segment → Queue
  | .window => s.window
  | .probation => s.probation
  | .guarded => s.guarded

/-- Replaces the list of a segment. -/
def setQueue (s : Slab V) (segment : Segment) (q : Queue) : Slab V :=
  match segment with
  | .window => { s with window := q }
  | .probation => { s with probation := q }
  | .guarded => { s with guarded := q }

/-- The link of a slot. -/
def link (s : Slab V) (i : Nat) : Link := s.links[i]?.getD {}

/-- Changes the link of a slot. -/
def setLink (s : Slab V) (i : Nat) (f : Link → Link) : Slab V :=
  { s with links := s.links.modify i f }

/-- Changes the link of a slot, if there is one. -/
def setLink? (s : Slab V) (i : Option Nat) (f : Link → Link) : Slab V :=
  match i with
  | some i => s.setLink i f
  | none => s

/-- Puts an unlinked node at the front of a segment. -/
def pushFront (s : Slab V) (i : Nat) (segment : Segment) : Slab V :=
  let q := s.queue segment
  let s := s.setQueue segment
    { q with head := some i, tail := q.tail.or (some i), length := q.length + 1 }
  let s := s.setLink i fun l => { l with prev := none, next := q.head, segment := segment }
  s.setLink? q.head fun l => { l with prev := some i }

/-- Takes a node out of its segment's list. -/
def unlink (s : Slab V) (i : Nat) : Slab V :=
  let l := s.link i
  let q := s.queue l.segment
  let q := { q with
    head := if l.prev.isSome then q.head else l.next
    tail := if l.next.isSome then q.tail else l.prev
    length := q.length - 1 }
  let s := s.setLink? l.prev fun m => { m with next := l.next }
  let s := s.setLink? l.next fun m => { m with prev := l.prev }
  (s.setQueue l.segment q).setLink i fun m => { m with prev := none, next := none }

/-- Moves a node to the front of a segment. -/
def moveTo (s : Slab V) (i : Nat) (segment : Segment) : Slab V :=
  (s.unlink i).pushFront i segment

/-! ## Slots -/

/-- The entry in a slot. -/
def entryAt (s : Slab V) (i : Nat) : Option (String × V) := s.slots[i]?.join

/-- Puts an entry into a free slot, or into a new one when there is none. -/
def allocate (s : Slab V) (key : String) (value : V) (hash : UInt64) : Nat × Slab V :=
  let link : Link := { hash := hash }
  match s.free with
  | i :: free =>
    (i, { s with
      slots := s.slots.set! i (some (key, value))
      links := s.links.set! i link
      free := free
      index := s.index.insert key i })
  | [] =>
    (s.slots.size, { s with
      slots := s.slots.push (some (key, value))
      links := s.links.push link
      index := s.index.insert key s.slots.size })

/-- Empties the slot of an unlinked node and gives back its entry. -/
def release (s : Slab V) (i : Nat) : Option (String × V) × Slab V :=
  match s.entryAt i with
  | none => (none, s)
  | some (key, value) =>
    (some (key, value), { s with
      slots := s.slots.set! i none
      index := s.index.erase key
      free := i :: s.free })

/-! ## Operations -/

/-- Refreshes a node that was hit: a node on probation becomes guarded, and the least recent
guarded one goes back on probation when too many are. -/
def touch (s : Slab V) (i : Nat) : Slab V :=
  match (s.link i).segment with
  | .window => s.moveTo i .window
  | .guarded => s.moveTo i .guarded
  | .probation =>
    let s := s.moveTo i .guarded
    if s.guarded.capacity < s.guarded.length then
      match s.guarded.tail with
      | some demoted => s.moveTo demoted .probation
      | none => s
    else s

/-- The node that leaves the main part when another one enters: the least recent on probation, or
else the least recent guarded one. -/
def victim? (s : Slab V) : Option Nat := s.probation.tail.or s.guarded.tail

/-- Lets an unlinked candidate into the main part, or drops it; gives back the entry that was
dropped. -/
def contend (s : Slab V) (candidate : Nat) : Option (String × V) × Slab V :=
  if s.probation.length + s.guarded.length < s.mainCapacity then
    (none, s.pushFront candidate .probation)
  else
    match s.victim? with
    | none => s.release candidate
    | some victim =>
      if s.filter.estimate (s.link victim).hash < s.filter.estimate (s.link candidate).hash then
        let (dropped, s) := (s.unlink victim).release victim
        (dropped, s.pushFront candidate .probation)
      else s.release candidate

/-- Records an access to a key in the filter. -/
def record (s : Slab V) (key : String) : Slab V :=
  { s with filter := s.filter.record (s.hash key) }

/-- Looks a key up, records the access and refreshes the entry. -/
def get (s : Slab V) (key : String) : Option V × Slab V :=
  let s := s.record key
  match s.index[key]? with
  | none => (none, s)
  | some i =>
    let s := s.touch i
    ((s.entryAt i).map (·.2), s)

/-- Looks a key up and leaves no trace. -/
def peek (s : Slab V) (key : String) : Option V :=
  (s.index[key]?).bind fun i => (s.entryAt i).map (·.2)

/-- Whether there is an entry under a key. -/
def contains (s : Slab V) (key : String) : Bool := s.index.contains key

/-- Puts a new key into the window and lets the window's overflow compete. -/
def insertNew (s : Slab V) (key : String) (value : V) : Option (String × V) × Slab V :=
  let s := s.record key
  let (i, s) := s.allocate key value (s.hash key)
  let s := s.pushFront i .window
  if s.window.length ≤ s.window.capacity then (none, s)
  else
    match s.window.tail with
    | none => (none, s)
    | some candidate => (s.unlink candidate).contend candidate

/-- Puts an entry under a key; gives back the entry that was dropped to make room. -/
def insert (s : Slab V) (key : String) (value : V) : Option (String × V) × Slab V :=
  match s.index[key]? with
  | some i => (none, { s with slots := s.slots.set! i (some (key, value)) }.touch i)
  | none => s.insertNew key value

/-- Removes a key and gives back its value. -/
def remove (s : Slab V) (key : String) : Option V × Slab V :=
  match s.index[key]? with
  | none => (none, s)
  | some i =>
    let (dropped, s) := (s.unlink i).release i
    (dropped.map (·.2), s)

end Slab

end LayeredCache.Eviction
