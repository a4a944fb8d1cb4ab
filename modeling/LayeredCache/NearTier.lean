import LayeredCache.Eviction.Slab
import LayeredCache.Native
import LayeredCache.Time

/-!
# The near tier

The near tier lives in the process. It holds a bounded number of entries, each with a deadline of
its own. Entries that are written together would expire together and be loaded again together, so
every lifetime is shortened by a random part of at most a tenth.

## Main definitions

* `NearTier` — the tier: its entries, its default lifetime and its source of random draws.
* `NearTier.jittered` — a lifetime after the random part is taken off.
* `NearTier.get`, `NearTier.put`, `NearTier.has`, `NearTier.delete`, `NearTier.clear` — the
  operations, each at a given instant where time matters.

## Implementation notes

The draws are a parameter: the tier takes the next one for every write. A write whose deadline the
clock cannot represent has no result; the tier is left as it was.
-/

set_option autoImplicit false

namespace LayeredCache

open Eviction

/-- A content with the instant from which on it is expired. -/
structure Entry where
  content : Content
  deadline : Instant
  deriving Repr

/-- Whether an entry is still to be served. -/
def Entry.isLive (e : Entry) (now : Instant) : Bool := now < e.deadline

/-- A bounded tier of entries that expire. -/
structure NearTier where
  entries : Slab Entry
  /-- The greatest number of entries that was asked for. -/
  size : Nat
  /-- The number of accesses over which popularity is estimated. -/
  samples : Nat
  /-- The lifetime of writes that name none. -/
  defaultTtl : Span
  /-- The random draws. -/
  draws : Nat → Nat
  /-- The number of draws that were used. -/
  drawn : Nat

namespace NearTier

/-! ## Lifetimes -/

/-- The default lifetime of a tier that is given none. -/
def standardTtl : Span := Span.seconds 60

/-- The greatest part that is taken off lifetimes that reach the default. -/
def greatestJitter : Span := Span.seconds 10

/-- The length of the range of random parts for a lifetime that is not zero. -/
def jitterRange (defaultTtl ttl : Span) : Nat :=
  let offset := min (ttl / 10) greatestJitter
  let range := if defaultTtl ≤ ttl ∧ offset ≠ 0 then offset else ttl / 10
  min range 0xffffffffffffffff

/-- A lifetime without the random part that `draw` selects; no lifetime stands for the default. -/
def jittered (defaultTtl ttl : Span) (draw : Nat) : Span :=
  let ttl := if ttl = 0 then defaultTtl else ttl
  let range := jitterRange defaultTtl ttl
  if range = 0 then ttl else ttl - draw % range

/-! ## Construction -/

/-- An empty tier, when its tables can be addressed. -/
def new (hash : String → UInt64) (draws : Nat → Nat) (size samples : Nat) : Option NearTier :=
  (Slab.new hash size samples).map fun entries =>
    ⟨entries, size, samples, standardTtl, draws, 0⟩

/-- The tier with another default lifetime; zero keeps the one it has. -/
def withTtl (t : NearTier) (ttl : Span) : NearTier :=
  if ttl = 0 then t else { t with defaultTtl := ttl }

/-! ## Operations -/

/-- The number of entries, expired ones included. -/
def count (t : NearTier) : Nat := t.entries.size

/-- Looks a key up and refreshes it; an entry found expired is removed. -/
def get (t : NearTier) (now : Instant) (key : String) : Option Content × NearTier :=
  match t.entries.get key with
  | (none, entries) => (none, { t with entries := entries })
  | (some e, entries) =>
    if e.isLive now then (some e.content, { t with entries := entries })
    else (none, { t with entries := (entries.remove key).2 })

/-- Writes a content under a key, unless the clock cannot represent its deadline. -/
def put (t : NearTier) (now : Instant) (key : String) (content : Content) (ttl : Span) :
    Option NearTier :=
  let life := jittered t.defaultTtl ttl (t.draws t.drawn)
  (deadline? now life).map fun deadline =>
    { t with entries := (t.entries.insert key ⟨content, deadline⟩).2, drawn := t.drawn + 1 }

/-- Whether there is an entry under a key that is not expired; no trace is left. -/
def has (t : NearTier) (now : Instant) (key : String) : Bool :=
  (t.entries.peek key).any fun e => e.isLive now

/-- Removes a key. -/
def delete (t : NearTier) (key : String) : NearTier :=
  { t with entries := (t.entries.remove key).2 }

/-- Drops every entry and all that was learnt about popularity. -/
def clear (t : NearTier) : NearTier :=
  { t with entries := Slab.empty t.entries.hash t.size t.samples }

/-- The time left to the entry under a key. -/
def remaining (t : NearTier) (now : Instant) (key : String) : Option Span :=
  (t.entries.peek key).map fun e => e.deadline - now

/-- A tier as text. -/
def text (t : NearTier) : String :=
  s!"LocalCache \x7b size: {t.size}, samples: {t.samples}, ttl: {Span.text t.defaultTtl} \x7d"

end NearTier

end LayeredCache
