/-!
# Shared runs

Callers that ask for the same key at the same time share one run: the first one runs, the others
wait in line and receive a copy of its output. When the caller that runs is dropped, the next one
in line runs instead.

A *call* is one such shared run with the callers inside it. Its permit belongs to the head of the
line; whoever holds the permit may run. A table says which call a new caller of a key joins.

## Main definitions

* `Flight.Call`, `Flight.Group` — calls, and the calls of all keys.
* `Flight.Group.join` — a caller enters the current call of its key, or opens one.
* `Flight.Group.turn` — what a caller finds when it looks.
* `Flight.Group.start`, `Flight.Group.land`, `Flight.Group.leave` — a caller begins its run, ends
  it with an output, or goes away.
* `Flight.settle` — callers are polled in rounds until nothing changes.

## Implementation notes

A caller is known by a number and is inside one call at a time. `leave` follows one rule whether
the caller is done or was dropped: the entry of the key is removed when the call is complete, or
when the caller that leaves was running and nobody else refers to the call. A caller that only
waited removes nothing.
-/

set_option autoImplicit false

namespace LayeredCache.Flight

/-- The number of a caller. -/
abbrev Caller := Nat

/-- A shared run with the callers inside it. -/
structure Call (τ : Type) where
  key : String
  /-- The callers inside, in the order in which they came. -/
  line : List Caller
  /-- Whether the head of the line has begun to run. -/
  running : Bool := false
  /-- What the run gave, once it is complete. -/
  output : Option τ := none
  deriving Repr

/-- The calls of all keys. -/
structure Group (τ : Type) where
  /-- All calls ever opened, the first one first. -/
  calls : List (Call τ) := []
  /-- The place of the call that a new caller of a key joins. -/
  current : List (String × Nat) := []
  deriving Repr

/-- What a caller finds when it looks at its call. -/
inductive Turn (τ : Type) where
  /-- The caller is in no call. -/
  | outside
  /-- Another caller holds the permit. -/
  | wait
  /-- The caller holds the permit and has not begun. -/
  | start
  /-- The caller is running. -/
  | running
  /-- The run is complete. -/
  | collect (output : τ)
  deriving Repr

namespace Call

variable {τ : Type}

/-- Whether a caller holds the permit of a call that is not complete. -/
def isHolder (c : Call τ) (caller : Caller) : Bool :=
  c.output.isNone && c.line.head? == some caller

/-- Whether a caller has begun the run of a call that is not complete. -/
def isRunner (c : Call τ) (caller : Caller) : Bool := c.running && c.isHolder caller

/-- The call without a caller; the permit goes on to the next in line. -/
def without (c : Call τ) (caller : Caller) : Call τ :=
  { c with line := c.line.erase caller, running := c.running && !c.isRunner caller }

end Call

namespace Group

variable {τ : Type}

/-- The number of keys with a call that new callers join. -/
def inFlight (g : Group τ) : Nat := g.current.length

/-- The place of the call that a caller is in. -/
def seat? (g : Group τ) (caller : Caller) : Option Nat :=
  g.calls.findIdx? fun c => c.line.contains caller

/-- The call that a caller is in. -/
def callOf? (g : Group τ) (caller : Caller) : Option (Call τ) :=
  (g.seat? caller).bind fun place => g.calls[place]?

/-- Changes the call at a place. -/
def update (g : Group τ) (place : Nat) (f : Call τ → Call τ) : Group τ :=
  { g with calls := g.calls.modify place f }

/-- Lets a caller enter the current call of a key, or a new call when there is none. -/
def enter (g : Group τ) (caller : Caller) (key : String) : Group τ :=
  match g.current.lookup key with
  | some place => g.update place fun c => { c with line := c.line ++ [caller] }
  | none =>
    { calls := g.calls ++ [{ key := key, line := [caller] }]
      current := (key, g.calls.length) :: g.current }

/-- Lets a caller enter unless it is inside a call already. -/
def join (g : Group τ) (caller : Caller) (key : String) : Group τ :=
  if (g.seat? caller).isSome then g else g.enter caller key

/-- What a caller finds. -/
def turn (g : Group τ) (caller : Caller) : Turn τ :=
  match g.callOf? caller with
  | none => .outside
  | some c =>
    match c.output with
    | some output => .collect output
    | none =>
      if c.isRunner caller then .running
      else if c.isHolder caller then .start
      else .wait

/-- The caller that holds the permit begins to run. -/
def start (g : Group τ) (caller : Caller) : Group τ :=
  match g.seat? caller with
  | none => g
  | some place => g.update place fun c => { c with running := true }

/-- How many refer to a call: the callers inside, and the table if new callers join it. -/
def references (g : Group τ) (place : Nat) (c : Call τ) : Nat :=
  c.line.length + if g.current.lookup c.key = some place then 1 else 0

/-- Whether the entry of the key is removed when a caller leaves. -/
def releases (g : Group τ) (place : Nat) (c : Call τ) (caller : Caller) : Bool :=
  (c.output.isSome || (c.isRunner caller && g.references place c ≤ 2)) &&
    g.current.lookup c.key == some place

/-- Removes the entry of a key. -/
def forget (g : Group τ) (key : String) : Group τ :=
  { g with current := g.current.filter fun e => e.1 != key }

/-- Takes a caller out of its call. -/
def leave (g : Group τ) (caller : Caller) : Group τ :=
  match g.seat? caller with
  | none => g
  | some place =>
    match g.calls[place]? with
    | none => g
    | some c =>
      let left := g.update place fun c => c.without caller
      if g.releases place c caller then left.forget c.key else left

/-- The caller that runs completes its call and leaves. -/
def land (g : Group τ) (caller : Caller) (output : τ) : Group τ :=
  match g.seat? caller with
  | none => g
  | some place => (g.update place fun c => { c with output := some output }).leave caller

end Group

/-! ## Rounds of polls -/

/-- Polls callers once, in order. A caller that is broken after its poll ends the round. -/
def round {S : Type} (poll : Caller → S → S) (broken : S → Caller → Bool) : List Caller → S → S
  | [], s => s
  | caller :: callers, s =>
    let next := poll caller s
    if broken next caller then next else round poll broken callers next

/-- Repeats rounds until one leaves `progress` as it was or leaves somebody broken, at most `fuel`
times. -/
def settle {S : Type} (poll : Caller → S → S) (broken : S → Caller → Bool) (callers : List Caller)
    (progress : S → Nat) : (fuel : Nat) → S → S
  | 0, s => s
  | fuel + 1, s =>
    let next := round poll broken callers s
    if callers.any (broken next) || progress next == progress s then next
    else settle poll broken callers progress fuel next

end LayeredCache.Flight
