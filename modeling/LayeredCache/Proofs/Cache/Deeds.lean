import LayeredCache.Cache.Run
import Mathlib.Tactic.Lemma

/-!
# What programs do to the tiers

A program that runs leaves a cache behind and, on its way, changes the near tier and speaks to the
far tier. The list of these deeds is the part of a run that other parties can tell apart.

## Main definitions

* `Deed` — a change of the near tier, or a request to the far tier with its answer.
* `Prog.deeds` — the deeds of a program, in order.
* `Prog.Does` — a program does certain deeds and ends with a certain progress and cache.

## Main results

* `Prog.run_bind`, `Prog.deeds_bind` — programs one after the other.
* `Prog.Does.bind`, `Prog.Does.bind_blocked`, `Prog.Does.bind_crashed` — the same for `Does`.
-/

set_option autoImplicit false

namespace LayeredCache

/-- What a program does to a tier. -/
inductive Deed where
  /-- It writes into the near tier. -/
  | put (key : String) (content : Content)
  /-- It removes a key from the near tier. -/
  | drop (key : String)
  /-- It sends a request to the far tier and gets an answer. -/
  | ask (request : Far.Request) (answer : Except Failure request.Reply)

namespace Prog

variable {α β σ : Type} [FarStore σ]

/-- The deeds of a program until it ends or has to wait. -/
def deeds (visit : Visit) : Prog α → Cache σ → List Deed
  | .done _, _ => []
  | .find key next, c =>
    match c.near with
    | none => (next none).deeds visit c
    | some t =>
      let (found, t) := t.get visit.now key
      (next found).deeds visit { c with near := some t }
  | .holds key next, c =>
    (next (c.near.any fun t => t.has visit.now key)).deeds visit c
  | .put key content ttl next, c =>
    match c.near with
    | none => next.deeds visit c
    | some t =>
      match t.put visit.now key content ttl with
      | none => []
      | some t => .put key content :: next.deeds visit { c with near := some t }
  | .drop key next, c => .drop key :: next.deeds visit (c.deleteNear key)
  | .call request next, c =>
    match c.far with
    | none => (next (.error .missing)).deeds visit c
    | some far =>
      let (answer, far) := FarStore.answer far visit.now request
      let c := { c with far := some far }
      match answer with
      | .reply value => .ask request (.ok value) :: (next (.ok value)).deeds visit c
      | .failure cause => .ask request (.error cause) :: (next (.error cause)).deeds visit c
      | .crash => []
  | .tally found next, c => next.deeds visit (c.recordTally found)
  | .count event next, c => next.deeds visit (c.recordEvent event)
  | .startLoad next, c => next.deeds visit { c with started := c.started ++ [visit.caller] }
  | .awaitLoad next, c =>
    match visit.loaded with
    | some answer => (next answer).deeds visit c
    | none => []
  | .join key next, c =>
    let c := { c with flights := c.flights.join visit.caller key }
    match c.flights.turn visit.caller with
    | .collect outcome =>
      (next (some outcome)).deeds visit { c with flights := c.flights.leave visit.caller }
    | .start => (next none).deeds visit { c with flights := c.flights.start visit.caller }
    | _ => []
  | .land outcome next, c =>
    next.deeds visit { c with flights := c.flights.land visit.caller outcome }

-- the equations of the three recursions are made here, once, and not by each proof that asks first
attribute [local simp] run deeds bind

/-- A program does certain deeds and comes to an end, or to a halt, with a cache. -/
structure Does (visit : Visit) (p : Prog α) (c : Cache σ) (ds : List Deed) (r : Progress α)
    (c' : Cache σ) : Prop where
  run : p.run visit c = (r, c')
  deeds : p.deeds visit c = ds

variable {visit : Visit} {c c₁ c' : Cache σ} {ds ds' : List Deed} {r : Progress α}

/-- What is left of two programs in a row when the first one has come so far. -/
def resume {α β σ : Type} [FarStore σ] (visit : Visit) (f : α → Prog β) :
    Progress α × Cache σ → Progress β × Cache σ
  | (.finished a, c) => (f a).run visit c
  | (.blocked rest, c) => (.blocked (rest.bind f), c)
  | (.crashed, c) => (.crashed, c)

/-- What two programs in a row do after the first one has come so far. -/
def deedsAfter {α β σ : Type} [FarStore σ] (visit : Visit) (f : α → Prog β) :
    Progress α × Cache σ → List Deed
  | (.finished a, c) => (f a).deeds visit c
  | _ => []

/-- **Programs in a row** run one after the other.

**Proof sketch.** Induction on the first program. Each request changes the cache in the same way on
both sides, and what follows is the induction hypothesis. -/
theorem run_bind (visit : Visit) (p : Prog α) (f : α → Prog β) (c : Cache σ) :
    (p.bind f).run visit c = resume visit f (p.run visit c) := by
  induction p generalizing c with
  | done a => rfl
  | find key next ih =>
    cases hnear : c.near with
    | none => simp only [bind, run, hnear, ih]
    | some t => simp only [bind, run, hnear, ih]
  | holds key next ih => simp only [bind, run, ih]
  | put key content ttl next ih =>
    cases hnear : c.near with
    | none => simp only [bind, run, hnear, ih]
    | some t =>
      cases hput : t.put visit.now key content ttl with
      | none => simp only [bind, run, hnear, hput, resume]
      | some t' => simp only [bind, run, hnear, hput, ih]
  | drop key next ih => simp only [bind, run, ih]
  | call request next ih =>
    cases hfar : c.far with
    | none => simp only [bind, run, hfar, ih]
    | some far =>
      simp only [bind, run, hfar]
      cases hanswer : FarStore.answer far visit.now request with
      | mk answer far' =>
        cases answer with
        | reply value => simp only [ih]
        | failure cause => simp only [ih]
        | crash => simp only [resume]
  | tally found next ih => simp only [bind, run, ih]
  | count event next ih => simp only [bind, run, ih]
  | startLoad next ih => simp only [bind, run, ih]
  | awaitLoad next ih =>
    cases hloaded : visit.loaded with
    | none => simp only [bind, run, hloaded, resume]
    | some answer => simp only [bind, run, hloaded, ih]
  | join key next ih =>
    simp only [bind, run]
    cases (c.flights.join visit.caller key).turn visit.caller with
    | collect outcome => simp only [ih]
    | start => simp only [ih]
    | outside => simp only [resume, bind]
    | wait => simp only [resume, bind]
    | running => simp only [resume, bind]
  | land outcome next ih => simp only [bind, run, ih]

/-- **Programs in a row** do the deeds of the first one and then those of the second. -/
theorem deeds_bind (visit : Visit) (p : Prog α) (f : α → Prog β) (c : Cache σ) :
    (p.bind f).deeds visit c =
      p.deeds visit c ++ deedsAfter visit f (p.run visit c) := by
  induction p generalizing c with
  | done a => rfl
  | find key next ih =>
    cases hnear : c.near with
    | none => simp only [bind, deeds, run, hnear, ih]
    | some t => simp only [bind, deeds, run, hnear, ih]
  | holds key next ih => simp only [bind, deeds, run, ih]
  | put key content ttl next ih =>
    cases hnear : c.near with
    | none => simp only [bind, deeds, run, hnear, ih]
    | some t =>
      cases hput : t.put visit.now key content ttl with
      | none => simp [bind, deeds, run, hnear, hput, deedsAfter]
      | some t' => simp only [bind, deeds, run, hnear, hput, ih, List.cons_append]
  | drop key next ih => simp only [bind, deeds, run, ih, List.cons_append]
  | call request next ih =>
    cases hfar : c.far with
    | none => simp only [bind, deeds, run, hfar, ih]
    | some far =>
      simp only [bind, deeds, run, hfar]
      cases hanswer : FarStore.answer far visit.now request with
      | mk answer far' =>
        cases answer with
        | reply value => simp only [ih, List.cons_append]
        | failure cause => simp only [ih, List.cons_append]
        | crash => simp [deedsAfter]
  | tally found next ih => simp only [bind, deeds, run, ih]
  | count event next ih => simp only [bind, deeds, run, ih]
  | startLoad next ih => simp only [bind, deeds, run, ih]
  | awaitLoad next ih =>
    cases hloaded : visit.loaded with
    | none => simp [bind, deeds, run, hloaded, deedsAfter]
    | some answer => simp only [bind, deeds, run, hloaded, ih]
  | join key next ih =>
    simp only [bind, deeds, run]
    cases (c.flights.join visit.caller key).turn visit.caller with
    | collect outcome => simp only [ih]
    | start => simp only [ih]
    | outside => simp [deedsAfter]
    | wait => simp [deedsAfter]
    | running => simp [deedsAfter]
  | land outcome next ih => simp only [bind, deeds, run, ih]

namespace Does

variable {p : Prog α} {f : α → Prog β} {a : α} {r' : Progress β}

/-- Two programs in a row, when the first one ends. -/
lemma bind (h : Does visit p c ds (.finished a) c₁) (h' : Does visit (f a) c₁ ds' r' c') :
    Does visit (p.bind f) c (ds ++ ds') r' c' where
  run := by
    rw [run_bind, h.run]
    exact h'.run
  deeds := by
    rw [deeds_bind, h.run, h.deeds]
    exact congrArg (ds ++ ·) h'.deeds

/-- Two programs in a row, when the first one has to wait. -/
lemma bind_blocked {rest : Prog α} (h : Does visit p c ds (.blocked rest) c') :
    Does visit (p.bind f) c ds (.blocked (rest.bind f)) c' where
  run := by
    rw [run_bind, h.run]
    rfl
  deeds := by
    rw [deeds_bind, h.run, h.deeds]
    exact List.append_nil ds

/-- Two programs in a row, when the first one crashes. -/
lemma bind_crashed (h : Does visit p c ds .crashed c') :
    Does visit (p.bind f) c ds .crashed c' where
  run := by
    rw [run_bind, h.run]
    rfl
  deeds := by
    rw [deeds_bind, h.run, h.deeds]
    exact List.append_nil ds

/-- A program that is done does nothing. -/
lemma done : Does visit (.done a) c [] (.finished a) c := ⟨rfl, rfl⟩

/-! ### Single requests -/

/-- Looking up in the near tier. -/
lemma find {key : String} {next : Option Content → Prog α} {t : NearTier} (hnear : c.near = some t)
    (h : Does visit (next (t.get visit.now key).1)
      { c with near := some (t.get visit.now key).2 } ds r c') :
    Does visit (.find key next) c ds r c' where
  run := by
    simp only [Prog.run, hnear]
    exact h.run
  deeds := by
    simp only [Prog.deeds, hnear]
    exact h.deeds

/-- Asking whether the near tier serves a key. -/
lemma holds {key : String} {next : Bool → Prog α}
    (h : Does visit (next (c.near.any fun t => t.has visit.now key)) c ds r c') :
    Does visit (.holds key next) c ds r c' := ⟨h.run, h.deeds⟩

/-- Writing into the near tier. -/
lemma put {key : String} {content : Content} {ttl : Span} {next : Prog α} {t t' : NearTier}
    (hnear : c.near = some t) (hput : t.put visit.now key content ttl = some t')
    (h : Does visit next { c with near := some t' } ds r c') :
    Does visit (.put key content ttl next) c (.put key content :: ds) r c' where
  run := by
    simp only [Prog.run, hnear, hput]
    exact h.run
  deeds := by
    simp only [Prog.deeds, hnear, hput]
    exact congrArg _ h.deeds

/-- Writing into the near tier when the clock cannot represent the deadline. -/
lemma put_crashed {key : String} {content : Content} {ttl : Span} {next : Prog α} {t : NearTier}
    (hnear : c.near = some t) (hput : t.put visit.now key content ttl = none) :
    Does visit (.put key content ttl next) c [] .crashed c where
  run := by simp only [Prog.run, hnear, hput]
  deeds := by simp only [Prog.deeds, hnear, hput]

/-- Removing a key from the near tier. -/
lemma drop {key : String} {next : Prog α} (h : Does visit next (c.deleteNear key) ds r c') :
    Does visit (.drop key next) c (.drop key :: ds) r c' :=
  ⟨h.run, congrArg _ h.deeds⟩

/-- A request to the far tier that is answered. -/
lemma call_reply {request : Far.Request} {next : Except Failure request.Reply → Prog α}
    {far far' : σ} {value : request.Reply} (hfar : c.far = some far)
    (hanswer : FarStore.answer far visit.now request = (.reply value, far'))
    (h : Does visit (next (.ok value)) { c with far := some far' } ds r c') :
    Does visit (.call request next) c (.ask request (.ok value) :: ds) r c' where
  run := by
    simp only [Prog.run, hfar, hanswer]
    exact h.run
  deeds := by
    simp only [Prog.deeds, hfar, hanswer]
    exact congrArg _ h.deeds

/-- A request to the far tier that fails. -/
lemma call_failure {request : Far.Request} {next : Except Failure request.Reply → Prog α}
    {far far' : σ} {cause : Failure} (hfar : c.far = some far)
    (hanswer : FarStore.answer far visit.now request = (.failure cause, far'))
    (h : Does visit (next (.error cause)) { c with far := some far' } ds r c') :
    Does visit (.call request next) c (.ask request (.error cause) :: ds) r c' where
  run := by
    simp only [Prog.run, hfar, hanswer]
    exact h.run
  deeds := by
    simp only [Prog.deeds, hfar, hanswer]
    exact congrArg _ h.deeds

/-- Counting a far look-up. -/
lemma tally {found : Bool} {next : Prog α} (h : Does visit next (c.recordTally found) ds r c') :
    Does visit (.tally found next) c ds r c' := ⟨h.run, h.deeds⟩

/-- Counting an event. -/
lemma count {event : Event} {next : Prog α} (h : Does visit next (c.recordEvent event) ds r c') :
    Does visit (.count event next) c ds r c' := ⟨h.run, h.deeds⟩

/-- Starting the loader. -/
lemma startLoad {next : Prog α}
    (h : Does visit next { c with started := c.started ++ [visit.caller] } ds r c') :
    Does visit (.startLoad next) c ds r c' := ⟨h.run, h.deeds⟩

/-- Waiting for a loader that has given its answer. -/
lemma awaitLoad {next : Except LoadFailure Value → Prog α} {answer : Except LoadFailure Value}
    (hloaded : visit.loaded = some answer) (h : Does visit (next answer) c ds r c') :
    Does visit (.awaitLoad next) c ds r c' where
  run := by
    simp only [Prog.run, hloaded]
    exact h.run
  deeds := by
    simp only [Prog.deeds, hloaded]
    exact h.deeds

/-- Waiting for a loader that has not given its answer. -/
lemma awaitLoad_blocked {next : Except LoadFailure Value → Prog α} (hloaded : visit.loaded = none) :
    Does visit (.awaitLoad next) c [] (.blocked (.awaitLoad next)) c where
  run := by simp only [Prog.run, hloaded]
  deeds := by simp only [Prog.deeds, hloaded]

/-- Joining a shared run that is complete. -/
lemma join_collect {key : String} {next : Option Outcome → Prog α} {outcome : Outcome}
    (hturn : (c.flights.join visit.caller key).turn visit.caller = .collect outcome)
    (h : Does visit (next (some outcome))
      { c with flights := (c.flights.join visit.caller key).leave visit.caller } ds r c') :
    Does visit (.join key next) c ds r c' where
  run := by
    simp only [Prog.run, hturn]
    exact h.run
  deeds := by
    simp only [Prog.deeds, hturn]
    exact h.deeds

/-- Joining a shared run that the caller is to run. -/
lemma join_start {key : String} {next : Option Outcome → Prog α}
    (hturn : (c.flights.join visit.caller key).turn visit.caller = .start)
    (h : Does visit (next none)
      { c with flights := (c.flights.join visit.caller key).start visit.caller } ds r c') :
    Does visit (.join key next) c ds r c' where
  run := by
    simp only [Prog.run, hturn]
    exact h.run
  deeds := by
    simp only [Prog.deeds, hturn]
    exact h.deeds

/-- Joining a shared run of another caller. -/
lemma join_wait {key : String} {next : Option Outcome → Prog α}
    (hturn : (c.flights.join visit.caller key).turn visit.caller = .wait) :
    Does visit (.join key next) c [] (.blocked (.join key next))
      { c with flights := c.flights.join visit.caller key } where
  run := by simp only [Prog.run, hturn]
  deeds := by simp only [Prog.deeds, hturn]

/-- Ending the shared run. -/
lemma land {outcome : Outcome} {next : Prog α}
    (h : Does visit next { c with flights := c.flights.land visit.caller outcome } ds r c') :
    Does visit (.land outcome next) c ds r c' := ⟨h.run, h.deeds⟩

end Does

end Prog

end LayeredCache
