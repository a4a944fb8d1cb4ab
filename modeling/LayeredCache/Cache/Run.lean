import LayeredCache.Cache.Program
import LayeredCache.Flight.Group
import LayeredCache.NearTier
import LayeredCache.Tally

/-!
# Running programs on a cache

A cache is the state that programs act on: its tiers, its counters and its shared runs. A program
runs until it ends or has to wait, for its loader or for another caller's run; what is left of it
then is again a program.

## Main definitions

* `Cache` — the state; its far tier is a store of type `σ`.
* `Visit` — who runs a program, and what is known of its loader.
* `Prog.run` — runs a program as far as it goes.
-/

set_option autoImplicit false

namespace LayeredCache

open Flight

/-- The state of a cache. -/
structure Cache (σ : Type) where
  near : Option NearTier := none
  far : Option σ := none
  tally : Option Tally := none
  counters : Option Counters := none
  envelope : Envelope := {}
  flights : Flight.Group Outcome := {}
  /-- The callers whose loaders were started, in that order. -/
  started : List Caller := []

namespace Cache

variable {σ : Type}

/-- What programs know of the cache. -/
def setup (c : Cache σ) : Setup := ⟨c.near.isSome, c.far.isSome, c.envelope⟩

/-- Counts a far look-up. -/
def recordTally (c : Cache σ) (found : Bool) : Cache σ :=
  { c with tally := c.tally.map fun t => if found then t.hit else t.miss }

/-- Counts an event. -/
def recordEvent (c : Cache σ) (event : Event) : Cache σ :=
  { c with counters := c.counters.map (·.record event) }

/-- Starts the tally again. -/
def resetTally (c : Cache σ) : Cache σ := { c with tally := c.tally.map fun _ => {} }

/-- Removes a key from the near tier only. -/
def deleteNear (c : Cache σ) (key : String) : Cache σ :=
  { c with near := c.near.map (·.delete key) }

/-- A part of a cache as text, if there is one. -/
def partText (part : Option String) : String :=
  match part with
  | some t => "Some(" ++ t ++ ")"
  | none => "None"

/-- A cache as text. -/
def text (c : Cache σ) : String :=
  "Cache \x7b local: " ++ partText (c.near.map NearTier.text) ++
    s!", remote: {c.far.isSome}, stats: " ++ partText (c.tally.map Tally.text) ++
    ", codec: " ++ c.envelope.text ++ " \x7d"

end Cache

/-- A caller at an instant. -/
structure Visit where
  now : Instant
  caller : Caller
  /-- What the caller's loader gives, once that is known. -/
  loaded : Option (Except LoadFailure Value) := none

/-- How far a program came. -/
inductive Progress (α : Type) where
  | finished (result : α)
  /-- It has to wait; what is left of it. -/
  | blocked (rest : Prog α)
  /-- The clock could not represent a deadline. -/
  | crashed

namespace Prog

variable {α σ : Type} [FarStore σ]

/-- Runs a program until it ends or has to wait. A request to a tier that the cache does not have
changes nothing. -/
def run (visit : Visit) : Prog α → Cache σ → Progress α × Cache σ
  | .done a, c => (.finished a, c)
  | .find key next, c =>
    match c.near with
    | none => (next none).run visit c
    | some t =>
      let (found, t) := t.get visit.now key
      (next found).run visit { c with near := some t }
  | .holds key next, c =>
    (next (c.near.any fun t => t.has visit.now key)).run visit c
  | .put key content ttl next, c =>
    match c.near with
    | none => next.run visit c
    | some t =>
      match t.put visit.now key content ttl with
      | none => (.crashed, c)
      | some t => next.run visit { c with near := some t }
  | .drop key next, c => next.run visit (c.deleteNear key)
  | .call request next, c =>
    match c.far with
    | none => (next (.error .missing)).run visit c
    | some far =>
      let (answer, far) := FarStore.answer far visit.now request
      let c := { c with far := some far }
      match answer with
      | .reply value => (next (.ok value)).run visit c
      | .failure cause => (next (.error cause)).run visit c
      | .crash => (.crashed, c)
  | .tally found next, c => next.run visit (c.recordTally found)
  | .count event next, c => next.run visit (c.recordEvent event)
  | .startLoad next, c => next.run visit { c with started := c.started ++ [visit.caller] }
  | .awaitLoad next, c =>
    match visit.loaded with
    | some answer => (next answer).run visit c
    | none => (.blocked (.awaitLoad next), c)
  | .join key next, c =>
    let c := { c with flights := c.flights.join visit.caller key }
    match c.flights.turn visit.caller with
    | .collect outcome =>
      (next (some outcome)).run visit { c with flights := c.flights.leave visit.caller }
    | .start => (next none).run visit { c with flights := c.flights.start visit.caller }
    | _ => (.blocked (.join key next), c)
  | .land outcome next, c =>
    next.run visit { c with flights := c.flights.land visit.caller outcome }

/-- Runs a program, and takes a caller that crashed out of its shared run. -/
def visit (v : Visit) (p : Prog α) (c : Cache σ) : Progress α × Cache σ :=
  match p.run v c with
  | (.crashed, c) => (.crashed, { c with flights := c.flights.leave v.caller })
  | r => r

end Prog

end LayeredCache
