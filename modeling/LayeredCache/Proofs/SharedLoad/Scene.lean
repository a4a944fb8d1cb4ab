import LayeredCache.Proofs.SharedLoad.Turns

/-!
# Shared loads of one key

Any number of callers load one key in shared runs, while other callers do whatever they like to
other keys. Callers come, are polled and are dropped in any order, and loaders give their values at
any time.

## Main definitions

* `SharedLoad.Act`, `SharedLoad.Scene`, `SharedLoad.after` — what happens, and what it leads to.
* `SharedLoad.Fair` — what is known of the callers.
* `SharedLoad.Moved` — one caller has moved.

## Main results

* `SharedLoad.Scene.step_poll`, `SharedLoad.Scene.step_drop` — the events that let a caller move.
-/

set_option autoImplicit false

namespace LayeredCache.SharedLoad

open Far Flight

variable {ρ : Type}

/-- What a caller reads. -/
abbrev Reading := Except Failure (Option Value)

/-- Something that happens. -/
inductive Act (ρ : Type) where
  /-- A caller of the shared load comes; what its loader gives may be known already. -/
  | come (item : Item ρ) (loaded : Option (Except LoadFailure Value))
  /-- A caller with another program comes. -/
  | other (program : Prog Reading) (loaded : Option (Except LoadFailure Value))
  | poll (now : Instant) (caller : Caller)
  | drop (caller : Caller)
  /-- A loader gives what it gives. -/
  | supply (caller : Caller) (answer : Except LoadFailure Value)

/-- The callers at work on a cache, and what they have done to its tiers. -/
structure Scene where
  tasks : Tasks MemoryStore Reading
  deeds : List Deed := []

/-- What is left of a program after a poll. -/
def restOf {α : Type} : Progress α → Option (Prog α)
  | .blocked rest => some rest
  | _ => none

/-- How a caller has ended after a poll, if it has. -/
def endingsOf {α : Type} (caller : Caller) : Progress α → List (Ending α)
  | .finished a => [(caller, some a)]
  | .blocked _ => []
  | .crashed => [(caller, none)]

namespace Scene

/-- The cache. -/
def cache (s : Scene) : Cache MemoryStore := s.tasks.cache

/-- A caller has neither ended nor been dropped. -/
def live (s : Scene) (i : Caller) : Bool := (s.tasks.tasks[i]?.bind Task.rest).isSome

/-- A caller has ended with a result. -/
def Returned (s : Scene) (i : Caller) (r : Reading) : Prop := (i, some r) ∈ s.tasks.ended

/-- A caller has crashed. -/
def Crashed (s : Scene) (i : Caller) : Prop := (i, none) ∈ s.tasks.ended

/-- What a caller does when it is polled. -/
def deedsOf (s : Scene) (now : Instant) (i : Caller) : List Deed :=
  match s.tasks.tasks[i]? with
  | some ⟨some p, loaded⟩ => p.deeds ⟨now, i, loaded⟩ s.cache
  | _ => []

/-- The scene after something has happened. -/
def step (ty : Ty) (s : Scene) : Act ρ → Scene
  | .come item loaded => { s with tasks := s.tasks.add (s.cache.setup.once ty item) loaded }
  | .other p loaded => { s with tasks := s.tasks.add p loaded }
  | .poll now i => { tasks := s.tasks.poll now i, deeds := s.deeds ++ s.deedsOf now i }
  | .drop i => { s with tasks := s.tasks.drop i }
  | .supply i answer => { s with tasks := s.tasks.supply i answer }

end Scene

/-- The scene after a course of events that begins with a cache. -/
def after (ty : Ty) (start : Cache MemoryStore) (acts : List (Act ρ)) : Scene :=
  acts.foldl (Scene.step ty) { tasks := { cache := start } }

/-- One more event. -/
lemma after_snoc (ty : Ty) (start : Cache MemoryStore) (acts : List (Act ρ)) (e : Act ρ) :
    after ty start (acts ++ [e]) = (after ty start acts).step ty e := by
  rw [after, List.foldl_append]
  rfl

/-! ## Who the callers are -/

/-- The caller that comes with an event, if one does: one of the shared load, with its item, or
another one. -/
def Act.newcomer? : Act ρ → Option (Option (Item ρ))
  | .come item _ => some (some item)
  | .other _ _ => some none
  | _ => none

/-- The callers, by their places. -/
def roster (acts : List (Act ρ)) : List (Option (Item ρ)) := acts.filterMap Act.newcomer?

/-- A caller takes part in the shared load, with an item. -/
def Asks (acts : List (Act ρ)) (i : Caller) (item : Item ρ) : Prop :=
  (roster acts)[i]? = some (some item)

/-- A caller does something else. -/
def Elsewhere (acts : List (Act ρ)) (i : Caller) : Prop := (roster acts)[i]? = some none

/-- Whether a caller takes part in the shared load. -/
def asks (acts : List (Act ρ)) (i : Caller) : Bool := ((roster acts)[i]?.join).isSome

/-- A caller takes part with some item. -/
lemma asks_iff (acts : List (Act ρ)) (i : Caller) :
    asks acts i = true ↔ ∃ item, Asks acts i item := by
  unfold asks Asks
  rcases (roster acts)[i]? with _ | _ | item
  · simp
  · simp
  · simp

/-- The callers after one more event. -/
lemma roster_snoc (acts : List (Act ρ)) (e : Act ρ) :
    roster (acts ++ [e]) = roster acts ++ e.newcomer?.toList := by
  rw [roster, roster, List.filterMap_append]
  refine congrArg (List.filterMap Act.newcomer? acts ++ ·) ?_
  cases h : e.newcomer? with
  | none => rw [List.filterMap_cons_none h, List.filterMap_nil, Option.toList_none]
  | some x => rw [List.filterMap_cons_some h, List.filterMap_nil, Option.toList_some]

/-- An event with which nobody comes. -/
lemma roster_snoc_of_none (acts : List (Act ρ)) {e : Act ρ} (h : e.newcomer? = none) :
    roster (acts ++ [e]) = roster acts := by
  rw [roster_snoc, h]
  exact List.append_nil _

/-- What a loader gives can be stored. -/
def Good (e : Envelope) (ty : Ty) (answer : Except LoadFailure Value) : Prop :=
  ∃ v data, answer = .ok v ∧ e.Keeps ty v data

/-- What is known of the callers: those of the shared load have plain items, their loaders succeed
with values that can be stored, and the others avoid the key. -/
structure Fair (e : Envelope) (ty : Ty) (key : String) (acts : List (Act ρ)) : Prop where
  items : ∀ item loaded, .come item loaded ∈ acts → item.Plain e ty key
  known : ∀ item answer, .come item (some answer) ∈ acts → Good e ty answer
  supplied : ∀ i item answer, .supply i answer ∈ acts → Asks acts i item → Good e ty answer
  elsewhere : ∀ p loaded, .other p loaded ∈ acts → p.Avoids key

/-- What is known of the callers was known before. -/
lemma Fair.of_snoc {e : Envelope} {ty : Ty} {key : String} {acts : List (Act ρ)} {a : Act ρ}
    (h : Fair e ty key (acts ++ [a])) : Fair e ty key acts where
  items item loaded hmem := h.items item loaded (List.mem_append_left _ hmem)
  known item answer hmem := h.known item answer (List.mem_append_left _ hmem)
  supplied i item answer hmem hasks := by
    refine h.supplied i item answer (List.mem_append_left _ hmem) ?_
    unfold Asks at hasks ⊢
    have hi := (List.getElem?_eq_some_iff.mp hasks).1
    rw [roster_snoc, List.getElem?_append_left hi]
    exact hasks
  elsewhere p loaded hmem := h.elsewhere p loaded (List.mem_append_left _ hmem)

/-! ## Polls and drops -/

namespace Scene

variable {ty : Ty} {s : Scene} {i : Caller} {now : Instant}

/-- **Polling** a caller that has something left of its program. -/
lemma step_poll {p : Prog Reading} {loaded : Option (Except LoadFailure Value)}
    {c' : Cache MemoryStore} {ds : List Deed} {r : Progress Reading}
    (ht : s.tasks.tasks[i]? = some ⟨some p, loaded⟩)
    (h : p.Visits ⟨now, i, loaded⟩ s.cache ds r c') :
    s.step ty (.poll now i : Act ρ) =
      { tasks :=
          { cache := c'
            tasks := s.tasks.tasks.modify i fun t => { t with rest := restOf r }
            ended := s.tasks.ended ++ endingsOf i r }
        deeds := s.deeds ++ ds } := by
  have hprogress : p.visit ⟨now, i, loaded⟩ s.tasks.cache = (r, c') := h.progress
  simp only [step, deedsOf, ht, h.deeds, Tasks.poll, hprogress]
  cases r with
  | finished a => rfl
  | blocked rest =>
    simp only [Tasks.setRest, restOf, endingsOf, List.append_nil]
  | crashed => rfl

/-- **Dropping** a caller. -/
lemma step_drop : s.step ty (.drop i : Act ρ) =
    { tasks :=
        { cache := { s.cache with flights := s.cache.flights.leave i }
          tasks := s.tasks.tasks.modify i fun t => { t with rest := none }
          ended := s.tasks.ended }
      deeds := s.deeds } := rfl

/-- Polling a caller that has nothing left. -/
lemma step_poll_over (h : s.live i = false) : s.step ty (.poll now i : Act ρ) = s := by
  unfold live at h
  cases ht : s.tasks.tasks[i]? with
  | none => simp only [step, Tasks.poll, deedsOf, ht, List.append_nil]
  | some t =>
    obtain ⟨rest, loaded⟩ := t
    cases rest with
    | none => simp only [step, Tasks.poll, deedsOf, ht, List.append_nil]
    | some p => simp [ht] at h

end Scene

/-! ## Moves of one caller -/

/-- The caller `i` has moved: it alone may have something else left of its program, have ended, or
have started its loader, and it has passed the others in their calls. -/
structure Moved (i : Caller) (s s' : Scene) : Prop where
  sound : s'.cache.Sound
  setup : s'.cache.setup = s.cache.setup
  ttl : s'.cache.near.map NearTier.defaultTtl = s.cache.near.map NearTier.defaultTtl
  passes : Flight.Group.Passes i s.cache.flights s'.cache.flights
  tasks : ∃ rest, s'.tasks.tasks = s.tasks.tasks.modify i fun t => { t with rest := rest }
  ended : ∃ endings, s'.tasks.ended = s.tasks.ended ++ endings ∧ ∀ e ∈ endings, e.1 = i
  started : ∃ n, s'.cache.started = s.cache.started ++ List.replicate n i

namespace Moved

variable {i w : Caller} {s s' : Scene}

/-- The number of callers stays the same. -/
lemma length (h : Moved i s s') : s'.tasks.tasks.length = s.tasks.tasks.length := by
  obtain ⟨rest, hrest⟩ := h.tasks
  rw [hrest, List.length_modify]

/-- The others have the same left. -/
lemma task (h : Moved i s s') (hw : w ≠ i) : s'.tasks.tasks[w]? = s.tasks.tasks[w]? := by
  obtain ⟨rest, hrest⟩ := h.tasks
  rw [hrest, List.getElem?_modify]
  simp [Ne.symm hw]

/-- The others are as live as before. -/
lemma live (h : Moved i s s') (hw : w ≠ i) : s'.live w = s.live w := by
  rw [Scene.live, Scene.live, h.task hw]

/-- Who has ended, stays so. -/
lemma ended_of_ended (h : Moved i s s') {r : Option Reading} (hr : (w, r) ∈ s.tasks.ended) :
    (w, r) ∈ s'.tasks.ended := by
  obtain ⟨endings, heq, -⟩ := h.ended
  rw [heq]
  exact List.mem_append_left _ hr

/-- Nobody else has ended. -/
lemma ended_iff (h : Moved i s s') (hw : w ≠ i) {r : Option Reading} :
    (w, r) ∈ s'.tasks.ended ↔ (w, r) ∈ s.tasks.ended := by
  refine ⟨fun hr => ?_, h.ended_of_ended⟩
  obtain ⟨endings, heq, hall⟩ := h.ended
  rw [heq] at hr
  rcases List.mem_append.mp hr with hr | hr
  · exact hr
  · exact absurd (hall _ hr) hw

/-- Nobody else has started its loader. -/
lemma started_iff (h : Moved i s s') (hw : w ≠ i) :
    w ∈ s'.cache.started ↔ w ∈ s.cache.started := by
  obtain ⟨n, hn⟩ := h.started
  rw [hn, List.mem_append]
  refine ⟨fun hmem => hmem.resolve_right fun hrep => ?_, .inl⟩
  exact hw (List.eq_of_mem_replicate hrep)

/-- A caller without a seat gets none while another one moves. -/
lemma seat (h : Moved i s s') (hf : s.cache.flights.Orderly) (hw : w ≠ i)
    (hseat : s.cache.flights.seat? w = none) : s'.cache.flights.seat? w = none := by
  rw [h.passes.orderly.seat_eq_none_iff]
  intro q k output hs
  obtain ⟨output', hs'⟩ := h.passes.others w hw q k output hs
  exact hf.seat_eq_none_iff.mp hseat q k output' hs'

/-- A caller sits in calls of the same keys while another one moves. -/
lemma keyed (h : Moved i s s') (hw : w ≠ i) {key : String}
    (hkeyed : s.cache.flights.Keyed w key) : s'.cache.flights.Keyed w key := by
  intro q k output hs
  obtain ⟨output', hs'⟩ := h.passes.others w hw q k output hs
  exact hkeyed q k output' hs'

end Moved

end LayeredCache.SharedLoad
