import LayeredCache.Cache.Run

/-!
# Callers at work on one cache

Several callers run programs on one cache in turns: each goes on, when it is polled, until it ends
or has to wait. A caller can be dropped while it waits, and what its loader gives can come at any
time. A caller that crashes leaves the shared runs, so that another one can take over. Its crash
ends all polls, and so does every later poll of it, until it is dropped.

## Main definitions

* `Task` — a caller with what is left of its program.
* `Tasks` — a cache with its callers.
* `Tasks.poll`, `Tasks.drop`, `Tasks.supply` — the events; `Tasks.settle` — polls until nothing
  changes or a caller crashes.
-/

set_option autoImplicit false

namespace LayeredCache

open Flight

/-- A caller and how far it has come. -/
structure Task (α : Type) where
  /-- What is left of its program; nothing when it ended or was dropped. -/
  rest : Option (Prog α)
  /-- What its loader gives, once that is known. -/
  loaded : Option (Except LoadFailure Value) := none

/-- How a caller ended: with a result, or with none because it crashed. -/
abbrev Ending (α : Type) := Caller × Option α

/-- A cache with its callers, known by their places. -/
structure Tasks (σ α : Type) where
  cache : Cache σ
  tasks : List (Task α) := []
  /-- The callers that ended, in that order. -/
  ended : List (Ending α) := []

namespace Tasks

variable {σ α : Type} [FarStore σ]

/-- Adds a caller that has not been polled. -/
def add (s : Tasks σ α) (p : Prog α) (loaded : Option (Except LoadFailure Value)) : Tasks σ α :=
  { s with tasks := s.tasks ++ [⟨some p, loaded⟩] }

/-- Sets what is left of a caller's program. -/
def setRest (s : Tasks σ α) (caller : Caller) (rest : Option (Prog α)) : Tasks σ α :=
  { s with tasks := s.tasks.modify caller fun t => { t with rest := rest } }

/-- Polls a caller at an instant. -/
def poll (now : Instant) (caller : Caller) (s : Tasks σ α) : Tasks σ α :=
  match s.tasks[caller]? with
  | some ⟨some p, loaded⟩ =>
    match p.visit ⟨now, caller, loaded⟩ s.cache with
    | (.finished a, c) =>
      { s with cache := c, ended := s.ended ++ [(caller, some a)] }.setRest caller none
    | (.crashed, c) =>
      { s with cache := c, ended := s.ended ++ [(caller, none)] }.setRest caller none
    | (.blocked rest, c) => { s with cache := c }.setRest caller (some rest)
  | _ => s

/-- Drops a caller. -/
def drop (caller : Caller) (s : Tasks σ α) : Tasks σ α :=
  { s with cache := { s.cache with flights := s.cache.flights.leave caller } }.setRest caller none

/-- Gives what a caller's loader gives. -/
def supply (caller : Caller) (answer : Except LoadFailure Value) (s : Tasks σ α) : Tasks σ α :=
  { s with tasks := s.tasks.modify caller fun t => { t with loaded := some answer } }

/-- Whether a caller has crashed. -/
def crashed (s : Tasks σ α) (caller : Caller) : Bool :=
  s.ended.any fun e => e.1 == caller && e.2.isNone

/-- Polls callers in order until nothing changes. A caller that crashes, or has crashed before, ends
all polls; so `callers` leaves out who was dropped. -/
def settle (now : Instant) (callers : List Caller) (s : Tasks σ α) : Tasks σ α :=
  Flight.settle (poll now) crashed callers (fun s => s.cache.started.length + s.ended.length)
    (2 * callers.length + 1) s

end Tasks

end LayeredCache
