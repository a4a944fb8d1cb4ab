import LayeredCache.Proofs.Cache.Deeds

/-!
# Programs one request at a time

Running a program takes all its requests in one go. Where several callers use a cache at the same
time, each request is a step of its own, and so is coming back from one: other callers may do
anything in between. Steps are told from a program's first request alone, and the program that runs
undisturbed does what its steps do.

## Main definitions

* `Prog.Step` — what a step of a program leads to.
* `Prog.step`, `Prog.deed` — the first step of a program, and what it does to a tier.
* `Throng` — callers at work on one cache.
* `Throng.turn`, `Throng.after` — one step of a caller, and the steps of all of them in some order.

## Main results

* `Prog.run_eq_step`, `Prog.deeds_eq_step` — a run is a step and the run of what is left.
* `Throng.alone` — a caller that is alone does what its program's run does.
-/

set_option autoImplicit false

namespace LayeredCache

/-! ## Steps of a program -/

/-- What a step of a program leads to. -/
inductive Prog.Step (α : Type) where
  /-- The program does not go on: it ended, has to wait or crashed. -/
  | stops (how : Progress α)
  | goes (rest : Prog α)

namespace Prog

variable {α σ : Type} [FarStore σ]

/-- Takes the first request of a program. What follows it, its answer included, is left. -/
def step (visit : Visit) : Prog α → Cache σ → Step α × Cache σ
  | .done a, c => (.stops (.finished a), c)
  | .find key next, c =>
    match c.near with
    | none => (.goes (next none), c)
    | some t =>
      let (found, t) := t.get visit.now key
      (.goes (next found), { c with near := some t })
  | .holds key next, c => (.goes (next (c.near.any fun t => t.has visit.now key)), c)
  | .put key content ttl next, c =>
    match c.near with
    | none => (.goes next, c)
    | some t =>
      match t.put visit.now key content ttl with
      | none => (.stops .crashed, c)
      | some t => (.goes next, { c with near := some t })
  | .drop key next, c => (.goes next, c.deleteNear key)
  | .call request next, c =>
    match c.far with
    | none => (.goes (next (.error .missing)), c)
    | some far =>
      let (answer, far) := FarStore.answer far visit.now request
      let c := { c with far := some far }
      match answer with
      | .reply value => (.goes (next (.ok value)), c)
      | .failure cause => (.goes (next (.error cause)), c)
      | .crash => (.stops .crashed, c)
  | .tally found next, c => (.goes next, c.recordTally found)
  | .count event next, c => (.goes next, c.recordEvent event)
  | .startLoad next, c => (.goes next, { c with started := c.started ++ [visit.caller] })
  | .awaitLoad next, c =>
    match visit.loaded with
    | some answer => (.goes (next answer), c)
    | none => (.stops (.blocked (.awaitLoad next)), c)
  | .join key next, c =>
    let c := { c with flights := c.flights.join visit.caller key }
    match c.flights.turn visit.caller with
    | .collect outcome =>
      (.goes (next (some outcome)), { c with flights := c.flights.leave visit.caller })
    | .start => (.goes (next none), { c with flights := c.flights.start visit.caller })
    | _ => (.stops (.blocked (.join key next)), c)
  | .land outcome next, c =>
    (.goes next, { c with flights := c.flights.land visit.caller outcome })

/-- What the first request of a program does to a tier, if it does anything to one. -/
def deed (visit : Visit) : Prog α → Cache σ → Option Deed
  | .put key content ttl _, c =>
    c.near.bind fun t => (t.put visit.now key content ttl).map fun _ => .put key content
  | .drop key _, _ => some (.drop key)
  | .call request _, c =>
    c.far.bind fun far =>
      match (FarStore.answer far visit.now request).1 with
      | .reply value => some (.ask request (.ok value))
      | .failure cause => some (.ask request (.error cause))
      | .crash => none
  | _, _ => none

/-- What is left after a step runs to its end. -/
def Step.run (visit : Visit) : Step α × Cache σ → Progress α × Cache σ
  | (.stops how, c) => (how, c)
  | (.goes rest, c) => rest.run visit c

/-- What is left after a step does. -/
def Step.deeds (visit : Visit) : Step α × Cache σ → List Deed
  | (.stops _, _) => []
  | (.goes rest, c) => rest.deeds visit c

-- the equations of steps and of runs are made here, once, and not by each proof that asks first
attribute [local simp] step deed run deeds

/-- **A run** is a step and the run of what is left. -/
theorem run_eq_step (visit : Visit) (p : Prog α) (c : Cache σ) :
    p.run visit c = Step.run visit (p.step visit c) := by
  cases p with
  | find key next => cases hnear : c.near <;> simp only [run, step, hnear, Step.run]
  | put key content ttl next =>
    cases hnear : c.near with
    | none => simp only [run, step, hnear, Step.run]
    | some t =>
      cases hput : t.put visit.now key content ttl <;>
        simp only [run, step, hnear, hput, Step.run]
  | call request next =>
    cases hfar : c.far with
    | none => simp only [run, step, hfar, Step.run]
    | some far =>
      simp only [run, step, hfar]
      rcases FarStore.answer far visit.now request with ⟨_ | _ | _, far'⟩ <;> rfl
  | awaitLoad next => cases hloaded : visit.loaded <;> simp only [run, step, hloaded, Step.run]
  | join key next =>
    simp only [run, step]
    cases (c.flights.join visit.caller key).turn visit.caller <;> rfl
  | _ => rfl

/-- **The deeds of a run** are that of its first step and those of what is left. -/
theorem deeds_eq_step (visit : Visit) (p : Prog α) (c : Cache σ) :
    p.deeds visit c = (p.deed visit c).toList ++ Step.deeds visit (p.step visit c) := by
  cases p with
  | find key next =>
    cases hnear : c.near <;> simp only [deeds, deed, step, hnear, Step.deeds] <;> rfl
  | put key content ttl next =>
    cases hnear : c.near with
    | none => simp only [deeds, deed, step, hnear, Step.deeds]; rfl
    | some t =>
      cases hput : t.put visit.now key content ttl <;>
        simp [deeds, deed, step, hnear, hput, Step.deeds]
  | call request next =>
    cases hfar : c.far with
    | none => simp only [deeds, deed, step, hfar, Step.deeds]; rfl
    | some far =>
      simp only [deeds, deed, step, hfar, Option.bind_some]
      rcases FarStore.answer far visit.now request with ⟨_ | _ | _, far'⟩ <;> rfl
  | awaitLoad next =>
    cases hloaded : visit.loaded <;> simp only [deeds, deed, step, hloaded, Step.deeds] <;> rfl
  | join key next =>
    simp only [deeds, deed, step]
    cases (c.flights.join visit.caller key).turn visit.caller <;> rfl
  | _ => rfl

section Requests

variable (visit : Visit) {c : Cache σ} {key : String}

/-- A step that looks a key up in the near tier. -/
lemma step_find {next : Option Content → Prog α} {t : NearTier} (hnear : c.near = some t) :
    step visit (.find key next) c = (.goes (next (t.get visit.now key).1),
      { c with near := some (t.get visit.now key).2 }) := by
  simp only [step, hnear]

/-- A step that writes into the near tier. -/
lemma step_put {content : Content} {ttl : Span} {t t' : NearTier} (next : Prog α)
    (hnear : c.near = some t) (hput : t.put visit.now key content ttl = some t') :
    step visit (.put key content ttl next) c = (.goes next, { c with near := some t' }) ∧
      deed visit (.put key content ttl next) c = some (.put key content) := by
  simp [step, deed, hnear, hput]

/-- A step that would write into the near tier what the clock cannot represent. -/
lemma step_put_crashed {content : Content} {ttl : Span} {t : NearTier} (next : Prog α)
    (hnear : c.near = some t) (hput : t.put visit.now key content ttl = none) :
    step visit (.put key content ttl next) c = (.stops .crashed, c) ∧
      deed visit (.put key content ttl next) c = none := by
  simp [step, deed, hnear, hput]

/-- A step that speaks to the far tier and gets a reply. -/
lemma step_call_reply {far : σ} (request : Far.Request)
    (next : Except Failure request.Reply → Prog α) {value : request.Reply} (hfar : c.far = some far)
    (hanswer : (FarStore.answer far visit.now request).1 = .reply value) :
    step visit (.call request next) c = (.goes (next (.ok value)),
        { c with far := some (FarStore.answer far visit.now request).2 }) ∧
      deed visit (.call request next) c = some (.ask request (.ok value)) := by
  simp only [step, deed, hfar, hanswer, Option.bind_some, and_self]

/-- A step that speaks to the far tier and is refused. -/
lemma step_call_failure {far : σ} (request : Far.Request)
    (next : Except Failure request.Reply → Prog α) {cause : Failure} (hfar : c.far = some far)
    (hanswer : (FarStore.answer far visit.now request).1 = .failure cause) :
    step visit (.call request next) c = (.goes (next (.error cause)),
        { c with far := some (FarStore.answer far visit.now request).2 }) ∧
      deed visit (.call request next) c = some (.ask request (.error cause)) := by
  simp only [step, deed, hfar, hanswer, Option.bind_some, and_self]

end Requests

/-- What a step leaves is a part of the program, so that programs can be reasoned about step by
step. -/
theorem step_induction {motive : Prog α → Prop}
    (h : ∀ p, (∀ (visit : Visit) (c : Cache σ) rest c', p.step visit c = (.goes rest, c') →
      motive rest) → motive p) (p : Prog α) : motive p := by
  induction p with
  | done a => exact h _ fun visit c rest c' hstep => by cases hstep
  | find key next ih =>
    refine h _ fun visit c rest c' hstep => ?_
    cases hnear : c.near <;> simp only [step, hnear] at hstep <;> cases hstep <;> exact ih _
  | put key content ttl next ih =>
    refine h _ fun visit c rest c' hstep => ?_
    cases hnear : c.near with
    | none =>
      simp only [step, hnear] at hstep
      cases hstep
      exact ih
    | some t =>
      cases hput : t.put visit.now key content ttl <;> simp only [step, hnear, hput] at hstep <;>
        cases hstep
      exact ih
  | call request next ih =>
    refine h _ fun visit c rest c' hstep => ?_
    cases hfar : c.far with
    | none =>
      simp only [step, hfar] at hstep
      cases hstep
      exact ih _
    | some far =>
      simp only [step, hfar] at hstep
      rcases hanswer : FarStore.answer far visit.now request with ⟨_ | _ | _, far'⟩ <;>
        simp only [hanswer] at hstep <;> cases hstep <;> exact ih _
  | awaitLoad next ih =>
    refine h _ fun visit c rest c' hstep => ?_
    cases hloaded : visit.loaded <;> simp only [step, hloaded] at hstep <;> cases hstep
    exact ih _
  | join key next ih =>
    refine h _ fun visit c rest c' hstep => ?_
    simp only [step] at hstep
    split at hstep <;> cases hstep <;> exact ih _
  | holds key next ih => exact h _ fun visit c rest c' hstep => by cases hstep; exact ih _
  | _ => rename_i ih; exact h _ fun visit c rest c' hstep => by cases hstep; exact ih

end Prog

/-! ## Callers at work on one cache -/

open Flight (Caller)

/-- Callers at work on one cache, known by their places. -/
structure Throng (σ : Type) where
  cache : Cache σ
  /-- How far each caller came. -/
  callers : List (Prog.Step Unit)
  /-- What was done to the tiers, and by whom. -/
  log : List (Caller × Deed) := []

namespace Throng

variable {σ : Type} [FarStore σ]

/-- The visit of a caller that takes a step; none of them has a loader. -/
def visitOf (t : Caller × Instant) : Visit := ⟨t.2, t.1, none⟩

/-- The callers after a step of one of them; a caller that does not go on takes none. -/
def turn (s : Throng σ) (t : Caller × Instant) : Throng σ :=
  match s.callers[t.1]? with
  | some (.goes p) =>
    { cache := (p.step (visitOf t) s.cache).2
      callers := s.callers.set t.1 (p.step (visitOf t) s.cache).1
      log := s.log ++ (p.deed (visitOf t) s.cache).toList.map (t.1, ·) }
  | _ => s

/-- A turn of a caller that goes on. -/
lemma turn_goes {s : Throng σ} {t : Caller × Instant} {p : Prog Unit}
    (ht : s.callers[t.1]? = some (.goes p)) {r : Prog.Step Unit} {c : Cache σ} {d : Option Deed}
    (hstep : p.step (visitOf t) s.cache = (r, c)) (hdeed : p.deed (visitOf t) s.cache = d) :
    s.turn t = ⟨c, s.callers.set t.1 r, s.log ++ d.toList.map (t.1, ·)⟩ := by
  simp only [turn, ht, hstep, hdeed]

/-- The callers after steps of some of them, in order. -/
def after (s : Throng σ) (turns : List (Caller × Instant)) : Throng σ := turns.foldl turn s

/-- Whether no caller goes on. -/
def Over (s : Throng σ) : Prop := ∀ p, .goes p ∉ s.callers

/-- A caller that is alone and has done certain deeds. -/
def single (caller : Prog.Step Unit × Cache σ) (deeds : List Deed) : Throng σ :=
  ⟨caller.2, [caller.1], deeds.map (0, ·)⟩

/-- One step of a caller that is alone. -/
lemma turn_single (now : Instant) (p : Prog Unit) (c : Cache σ) (ds : List Deed) :
    (single (.goes p, c) ds).turn (0, now) = single (p.step (visitOf (0, now)) c)
      (ds ++ (p.deed (visitOf (0, now)) c).toList) := by
  simp [turn, single]

/-- **A caller that is alone** does what its program's run does.

**Proof sketch.** Step by step (`Prog.step_induction`): a run is a step and the run of what is left
(`Prog.run_eq_step`, `Prog.deeds_eq_step`). -/
theorem alone (now : Instant) (p : Prog Unit) (c : Cache σ) (ds : List Deed) :
    ∃ n, (single (.goes p, c) ds).after (List.replicate n (0, now)) =
      single (.stops (p.run (visitOf (0, now)) c).1, (p.run (visitOf (0, now)) c).2)
        (ds ++ p.deeds (visitOf (0, now)) c) := by
  induction p using Prog.step_induction (σ := σ) generalizing c ds with
  | h p ih =>
    rw [Prog.run_eq_step, Prog.deeds_eq_step]
    rcases hstep : p.step (visitOf (0, now)) c with ⟨how | rest, c'⟩
    · refine ⟨1, ?_⟩
      rw [List.replicate_one, after, List.foldl_cons, turn_single, hstep]
      simp [Prog.Step.run, Prog.Step.deeds]
    · obtain ⟨n, hn⟩ := ih _ c rest c' hstep c' (ds ++ (p.deed (visitOf (0, now)) c).toList)
      refine ⟨n + 1, ?_⟩
      rw [List.replicate_succ, after, List.foldl_cons, turn_single, hstep, ← after, hn,
        List.append_assoc]
      rfl

end Throng

end LayeredCache
