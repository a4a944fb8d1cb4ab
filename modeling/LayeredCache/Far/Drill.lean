import LayeredCache.Far.Request

/-!
# A far tier for drills

A drill wraps a far tier, keeps a log of the requests that it receives, and lets chosen kinds of
requests go wrong, so that one can see how a cache behaves when its far tier does not.

## Main definitions

* `Far.Drill` — a store with a log, faults and possibly a fixed answer to every read.
* `Far.Mishap` — what can go wrong.
* The instance of `FarStore`.
-/

set_option autoImplicit false

namespace LayeredCache.Far

/-- The kind of a request; writes are told apart by their condition. -/
inductive Kind where
  | write (condition : Condition)
  | get
  | delete
  | ping
  deriving DecidableEq, Repr

/-- The kind of a request. -/
def Request.kind : Request → Kind
  | .write condition _ _ _ => .write condition
  | .get _ => .get
  | .delete _ => .delete
  | .ping => .ping

/-- What can go wrong with a request. -/
inductive Mishap where
  /-- It fails for the given cause. -/
  | fail (cause : Failure)
  /-- A change is not made: an unconditional one seems to succeed, a conditional one seems refused.
  Other requests are answered as usual. -/
  | lost
  deriving DecidableEq, Repr

/-- A far tier in which chosen kinds of requests go wrong. -/
structure Drill (σ : Type) where
  store : σ
  mishaps : List (Kind × Mishap) := []
  /-- What every read is answered with, if that is fixed. -/
  fixed : Option Bytes := none
  /-- The requests received, in order. -/
  log : List Request := []

namespace Drill

variable {σ : Type}

/-- Sets what goes wrong with a kind of requests, or that nothing does. -/
def plan (d : Drill σ) (kind : Kind) (mishap : Option Mishap) : Drill σ :=
  let others := d.mishaps.filter fun e => e.1 != kind
  { d with mishaps := (mishap.map (kind, ·)).toList ++ others }

/-- What goes wrong with a kind of requests. -/
def mishap? (d : Drill σ) (kind : Kind) : Option Mishap := d.mishaps.lookup kind

/-- The answer to a change that is not made; nothing for other requests. -/
def lostReply? : (r : Request) → Option r.Reply
  | .write condition _ _ _ => some (condition == .always)
  | .delete _ => some ()
  | .get _ => none
  | .ping => none

/-- The answer of the store, or the fixed one. -/
def usual [FarStore σ] (d : Drill σ) (now : Instant) (r : Request) : Answer r × Drill σ :=
  match r, d.fixed with
  | .get _, some data => (.reply data, d)
  | r, _ =>
    let (answer, store) := FarStore.answer d.store now r
    (answer, { d with store := store })

end Drill

instance {σ : Type} [FarStore σ] : FarStore (Drill σ) where
  answer d now r :=
    let d := { d with log := d.log ++ [r] }
    match d.mishap? r.kind with
    | some (.fail cause) => (.failure cause, d)
    | some .lost =>
      match Drill.lostReply? r with
      | some value => (.reply value, d)
      | none => d.usual now r
    | none => d.usual now r

end LayeredCache.Far
