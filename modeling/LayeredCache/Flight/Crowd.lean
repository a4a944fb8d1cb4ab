import LayeredCache.Flight.Group

/-!
# Callers of shared runs

Any number of callers, each with a key and a run of its own that ends when its result is given.
A caller that is polled enters the call of its key, begins to run when it holds the permit, and
returns when its run ends or when another caller's output is there.

## Main definitions

* `Flight.Member` — a caller and how far it has come.
* `Flight.Crowd` — the callers and their calls.
* `Flight.Crowd.poll`, `Flight.Crowd.drop`, `Flight.Crowd.supply` — the events.
-/

set_option autoImplicit false

namespace LayeredCache.Flight

/-- How far a caller has come. -/
inductive Stage (τ : Type) where
  /-- Not polled yet, or inside a call. -/
  | live
  /-- It returned an output, which another caller's run gave if `shared`. -/
  | returned (output : τ) (shared : Bool)
  | dropped
  deriving Repr

/-- A caller. -/
structure Member (τ : Type) where
  key : String
  stage : Stage τ := .live
  /-- What its own run gives, once that is known. -/
  result : Option τ := none
  deriving Repr

/-- Callers, known by their places, and their calls. -/
structure Crowd (τ : Type) where
  group : Group τ := {}
  members : List (Member τ) := []
  /-- The callers whose runs began, in that order. -/
  ran : List Caller := []
  /-- The callers that returned, in that order. -/
  returns : List Caller := []
  deriving Repr

namespace Crowd

variable {τ : Type}

/-- Whether a caller has neither returned nor been dropped. -/
def isLive (c : Crowd τ) (caller : Caller) : Bool :=
  match c.members[caller]? with
  | some m => match m.stage with
    | .live => true
    | _ => false
  | none => false

/-- The callers that have neither returned nor been dropped. -/
def live (c : Crowd τ) : List Caller := (List.range c.members.length).filter c.isLive

/-- Adds a caller that has not been polled; what its run gives may be known already. -/
def add (c : Crowd τ) (key : String) (result : Option τ) : Crowd τ :=
  { c with members := c.members ++ [{ key := key, result := result }] }

/-- Sets how far a caller has come. -/
def setStage (c : Crowd τ) (caller : Caller) (stage : Stage τ) : Crowd τ :=
  { c with members := c.members.modify caller fun m => { m with stage := stage } }

/-- A caller returns. -/
def deliver (c : Crowd τ) (caller : Caller) (output : τ) (shared : Bool) : Crowd τ :=
  { c.setStage caller (.returned output shared) with returns := c.returns ++ [caller] }

/-- Ends the run of a caller that runs, if its result is known. -/
def complete (c : Crowd τ) (caller : Caller) (m : Member τ) : Crowd τ :=
  match m.result with
  | none => c
  | some output => { c with group := c.group.land caller output }.deliver caller output false

/-- Polls a caller: it goes as far as it can. -/
def poll (caller : Caller) (c : Crowd τ) : Crowd τ :=
  match c.members[caller]? with
  | none => c
  | some m =>
    match m.stage with
    | .live =>
      let c := { c with group := c.group.join caller m.key }
      match c.group.turn caller with
      | .outside => c
      | .wait => c
      | .start =>
        { c with group := c.group.start caller, ran := c.ran ++ [caller] }.complete caller m
      | .running => c.complete caller m
      | .collect output =>
        { c with group := c.group.leave caller }.deliver caller output true
    | _ => c

/-- Drops a caller. -/
def drop (caller : Caller) (c : Crowd τ) : Crowd τ :=
  if c.isLive caller then { c with group := c.group.leave caller }.setStage caller .dropped else c

/-- Gives the result of a caller's own run. -/
def supply (caller : Caller) (output : τ) (c : Crowd τ) : Crowd τ :=
  { c with members := c.members.modify caller fun m => { m with result := some output } }

/-- Polls all live callers in order until nothing changes; none of them breaks. -/
def settle (c : Crowd τ) : Crowd τ :=
  Flight.settle poll (fun _ _ => false) c.live (fun c => c.ran.length + c.returns.length)
    (2 * c.live.length + 1) c

end Crowd

end LayeredCache.Flight
