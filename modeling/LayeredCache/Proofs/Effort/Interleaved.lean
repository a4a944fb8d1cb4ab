import LayeredCache.Far.Drill
import LayeredCache.Proofs.Effort.Leaders
import LayeredCache.Proofs.SharedLoad.OneLoad
import Mathlib.Algebra.Order.BigOperators.Group.List
import Mathlib.Algebra.Order.Ring.Nat

/-!
# Loads are bounded and end

Any number of callers use one cache. Each takes one step at a time, and between any two of its steps
the others may take theirs. Callers come, are dropped, and are given what their loaders give, at any
time. Whatever the tiers answer, reading or computing costs each caller at most two look-ups in the
far tier, one deletion, one write, one run of its loader and one dropped entry. In a shared load all
but the first look-up are inside the run that the caller leads. A caller that goes on ends, unless
it waits for another caller's run, and a shared run is led by one caller that has not fallen.

## Main definitions

* `Effort.Act`, `Effort.Scene`, `Effort.after` — what happens, and what it leads to.
* `Effort.Scene.own`, `Effort.Scene.leaders` — the contacts of a caller; who has led a shared run.
* `Effort.Bounded` — what is said of a scene.

## Main results

* `Effort.Accounted.step` — what holds after every event.
* `Effort.loads_bounded` — loads are bounded and end.
-/

set_option autoImplicit false

namespace LayeredCache.Effort

open Prog (Trace)
open Flight (Caller)
open Serial (Call)

variable {ρ σ : Type}

/-! ## Scenes -/

/-- A caller with its call and how far it has come. -/
structure Worker (ρ : Type) where
  call : Call ρ
  /-- What is left of its program; nothing when it ended or was dropped. -/
  rest : Option (Prog Unit)
  /-- What its loader gives, once that is known. -/
  loaded : Option (Except LoadFailure Value)

/-- Something that happens. -/
inductive Act (ρ : Type) where
  /-- A caller comes. -/
  | come (call : Call ρ) (loaded : Option (Except LoadFailure Value))
  /-- A caller takes a step. -/
  | go (now : Instant) (caller : Caller)
  /-- A caller is dropped. -/
  | drop (caller : Caller)
  /-- A loader gives what it gives. -/
  | supply (caller : Caller) (answer : Except LoadFailure Value)

/-- The callers at work on a cache, known by their places. -/
structure Scene (σ ρ : Type) where
  cache : Cache σ
  workers : List (Worker ρ) := []
  /-- The contacts of all callers, in order. -/
  log : List (Caller × Contact) := []
  /-- The callers that were dropped or have crashed. -/
  fallen : List Caller := []

namespace Scene

/-- The contacts of a caller. -/
def own (s : Scene σ ρ) (i : Caller) : List Contact :=
  (s.log.filter fun e => e.1 = i).map Prod.snd

/-- Sets what is left of a caller's program. -/
def setRest (s : Scene σ ρ) (i : Caller) (rest : Option (Prog Unit)) : Scene σ ρ :=
  { s with workers := s.workers.modify i fun w => { w with rest := rest } }

/-- A caller falls: it leaves its shared run. -/
def fell (s : Scene σ ρ) (i : Caller) : Scene σ ρ :=
  { s with
    cache := { s.cache with flights := s.cache.flights.leave i }
    fallen := s.fallen ++ [i] }

variable [FarStore σ]

/-- A step of a caller that has a program left. -/
def go (s : Scene σ ρ) (visit : Visit) (p : Prog Unit) : Scene σ ρ :=
  let log := s.log ++ (p.contact visit s.cache).toList.map (visit.caller, ·)
  let s' : Scene σ ρ := { s with cache := (p.step visit s.cache).2, log := log }
  match (p.step visit s.cache).1 with
  | .goes rest => s'.setRest visit.caller (some rest)
  | .stops (.finished _) => s'.setRest visit.caller none
  | .stops (.blocked rest) => s'.setRest visit.caller (some rest)
  | .stops .crashed => (s'.setRest visit.caller none).fell visit.caller

/-- The scene after something has happened. -/
def step (s : Scene σ ρ) : Act ρ → Scene σ ρ
  | .come call loaded =>
    { s with workers := s.workers ++ [⟨call, some (call.program s.cache.setup), loaded⟩] }
  | .go now i =>
    match s.workers[i]? with
    | some ⟨_, some p, loaded⟩ => s.go ⟨now, i, loaded⟩ p
    | _ => s
  | .drop i =>
    match s.workers[i]? with
    | some ⟨_, some _, _⟩ => (s.setRest i none).fell i
    | _ => s
  | .supply i answer =>
    { s with workers := s.workers.modify i fun w => { w with loaded := some answer } }

end Scene

/-- The scene after a course of events that begins with a cache. -/
def after [FarStore σ] (start : Cache σ) (acts : List (Act ρ)) : Scene σ ρ :=
  acts.foldl Scene.step { cache := start }

/-- One more event. -/
lemma after_snoc [FarStore σ] (start : Cache σ) (acts : List (Act ρ)) (e : Act ρ) :
    after start (acts ++ [e]) = (after start acts).step e := by
  rw [after, List.foldl_append]
  rfl

/-! ## What is said of a scene -/

/-- Certain contacts are at most so many. -/
structure AtMost (log : List Contact) (gets deletes writes loads heals : Nat) : Prop where
  gets : spent .get log ≤ gets
  deletes : spent .delete log ≤ deletes
  writes : spent .write log ≤ writes
  loads : spent .load log ≤ loads
  heals : spent .heal log ≤ heals

namespace Scene

/-- The callers that have led the shared run at a place. -/
def leaders (s : Scene σ ρ) (place : Nat) : List Caller :=
  (List.range s.workers.length).filter fun i =>
    (s.own i).any fun | .lead p => p == place | _ => false

/-- What the shared run at a place has cost, with all callers that have led it. -/
def cost (s : Scene σ ρ) (k : Kind) (place : Nat) : Nat :=
  ((s.leaders place).map fun i => spent k (inside (s.own i))).sum

end Scene

/-- Loads are bounded and end. -/
structure Bounded [FarStore σ] (start : Cache σ) (s : Scene σ ρ) : Prop where
  /-- What a caller does at most, and how many contacts it makes. -/
  calls : ∀ (i : Caller) (w : Worker ρ), s.workers[i]? = some w →
    AtMost (s.own i) 2 1 1 1 1 ∧ (s.own i).length ≤ 23
  /-- A shared load makes one look-up before it joins. The run that it leads makes one look-up, one
  deletion and one write, and runs the loader and drops an entry once. -/
  shared : ∀ (i : Caller) (w : Worker ρ), s.workers[i]? = some w → mayShare w.call = true →
    AtMost (ahead (s.own i)) 1 0 0 0 0 ∧ AtMost (inside (s.own i)) 1 1 1 1 1
  /-- When a leader has fallen, another caller may lead the run at its place anew. With all its
  leaders a run costs one of each kind, and one more for each leader that has fallen. -/
  runs : ∀ place k, k ≠ .share → k ≠ .any →
    s.cost k place ≤ 1 + ((s.leaders place).filter (· ∈ s.fallen)).length
  /-- A caller whose loader has given its answer ends, now and on every cache that is set up alike,
  unless it waits for another caller's run; and it ends with a result unless the clock could not
  represent a deadline. -/
  ends : ∀ (i : Caller) (w : Worker ρ) (p : Prog Unit), s.workers[i]? = some w → w.rest = some p →
    ∀ (visit : Visit) (c : Cache σ) (answer : Except LoadFailure Value),
    c.setup = start.setup → visit.loaded = some answer →
      (p.run visit c).1 = .finished () ∨
      ((p.run visit c).1 = .crashed ∧ ∃ x ∈ p.contacts visit c, x.Fatal) ∨
      (mayShare w.call = true ∧ (p.run visit c).1.Queued)

/-! ## Limits in numbers -/

section Numbers

variable {s : Setup} {call : Call ρ} {log : List Contact}

/-- The contacts of a caller are those ahead of a shared run and those inside it. -/
lemma spent_split (k : Kind) (log : List Contact) :
    spent k log = spent k (ahead log) + spent k (inside log) := by
  rw [← spent_append, ahead, inside, List.takeWhile_append_dropWhile]

/-- The limits of a shared load. -/
lemma limits_shared (hshare : mayShare call = true) :
    aheadOf call = looking ∧ insideOf call = flying := by
  refine ⟨?_, if_pos hshare⟩
  cases call with
  | once ty item => rfl
  | load ty item => exact if_pos hshare
  | _ => cases hshare

/-- The limits of any other call are those of reading or computing, or less. -/
lemma limits_alone (hshare : mayShare call = false) (k : Kind) :
    aheadOf call k ≤ taking k ∧ insideOf call k = 0 := by
  constructor
  · cases call with
    | load ty item =>
      have hgroup : item.options.group = false := hshare
      simp only [aheadOf, hgroup]
      exact le_refl _
    | once ty item => cases hshare
    | take ty item => exact le_refl _
    | _ => cases k <;> simp [aheadOf, taking, looking, writing, deleting, healing, producing]
  · rw [insideOf, hshare]
    rfl

/-- **What a call does at most**, in numbers. -/
theorem Begins.atMost (h : Begins s call log) : AtMost log 2 1 1 1 1 ∧ log.length ≤ 23 := by
  have hspent : ∀ k, spent k log ≤
      max (taking k + joining k) (looking k + (flying k + joining k)) := by
    intro k
    obtain ⟨hahead, hinside⟩ := h.spends k
    rw [spent_split]
    cases hshare : mayShare call with
    | true =>
      rw [(limits_shared hshare).1] at hahead
      rw [(limits_shared hshare).2] at hinside
      omega
    | false =>
      obtain ⟨hle, hnone⟩ := limits_alone hshare k
      omega
  have hlength : log.length = spent .any log :=
    (List.countP_eq_length.mpr fun x _ => by cases x <;> rfl).symm
  refine ⟨⟨hspent .get, hspent .delete, hspent .write, hspent .load, hspent .heal⟩, ?_⟩
  rw [hlength]
  exact hspent .any

/-- **What a shared load does at most**, ahead of its run and inside it. -/
theorem Begins.atMost_shared (h : Begins s call log) (hshare : mayShare call = true) :
    AtMost (ahead log) 1 0 0 0 0 ∧ AtMost (inside log) 1 1 1 1 1 := by
  have hlimits : aheadOf call = looking ∧ insideOf call = flying := limits_shared hshare
  have hahead : ∀ k, spent k (ahead log) ≤ looking k := fun k => hlimits.1 ▸ (h.spends k).1
  have hinside : ∀ k, spent k (inside log) ≤ flying k + joining k :=
    fun k => hlimits.2 ▸ (h.spends k).2
  exact ⟨⟨hahead .get, hahead .delete, hahead .write, hahead .load, hahead .heal⟩,
    ⟨hinside .get, hinside .delete, hinside .write, hinside .load, hinside .heal⟩⟩

/-- Inside a shared run every call does at most one of each kind. -/
lemma Begins.inside_le (h : Begins s call log) {k : Kind} (hk : k ≠ .share) (hk' : k ≠ .any) :
    spent k (inside log) ≤ 1 := by
  refine (h.spends k).2.trans ?_
  have hle : insideOf call k ≤ flying k := by
    unfold insideOf
    split
    · exact le_refl _
    · exact Nat.zero_le _
  cases k <;> first | exact absurd rfl hk | exact absurd rfl hk' | exact Nat.add_le_add_right hle _

end Numbers

/-! ## What holds after every event -/

/-- What holds between two events. -/
structure Accounted (start : Cache σ) (s : Scene σ ρ) : Prop where
  setup : s.cache.setup = start.setup
  present : ∀ e ∈ s.log, e.1 < s.workers.length
  known : ∀ i ∈ s.fallen, i < s.workers.length
  /-- Who has fallen has nothing left. -/
  still : ∀ (i : Caller) (w : Worker ρ), s.workers[i]? = some w → i ∈ s.fallen → w.rest = none
  /-- The contacts of a caller are those with which its call begins. -/
  begun : ∀ (i : Caller) (w : Worker ρ), s.workers[i]? = some w →
    Begins start.setup w.call (s.own i)
  /-- What is left of a caller's program goes on where its contacts end. -/
  going : ∀ (i : Caller) (w : Worker ρ) (p : Prog Unit), s.workers[i]? = some w →
    w.rest = some p → ∀ log r, Trace start.setup p log r →
      Trace start.setup (w.call.program start.setup) (s.own i ++ log) r
  led : Led s.cache.flights s.own (· ∈ s.fallen)

section Events

variable {start : Cache σ} {s : Scene σ ρ} {i w : Caller}

/-- Nobody has come when nothing has happened. -/
lemma accounted_nil (hf : start.flights.Orderly) :
    Accounted start ({ cache := start } : Scene σ ρ) where
  setup := rfl
  present := by simp
  known := by simp
  still := by simp
  begun := by simp
  going := by simp
  led := {
    orderly := hf
    leads := fun i place _ hstage => by cases hstage
    led := fun i place _ hlead => by simp [Scene.own] at hlead
    single := fun i j place hlead => by simp [Scene.own] at hlead }

/-- A worker after another one was changed. -/
lemma worker_modify {f : Worker ρ → Worker ρ} {x : Worker ρ}
    (h : (s.workers.modify i f)[w]? = some x) :
    (w = i ∧ ∃ y, s.workers[i]? = some y ∧ x = f y) ∨ (w ≠ i ∧ s.workers[w]? = some x) := by
  rw [List.getElem?_modify] at h
  obtain ⟨y, hy, rfl⟩ := Option.map_eq_some_iff.mp h
  by_cases hw : i = w
  · subst hw
    exact .inl ⟨rfl, y, hy, if_pos rfl⟩
  · exact .inr ⟨Ne.symm hw, hy.trans (congrArg some (if_neg hw).symm)⟩

namespace Accounted

/-- A caller that comes has made no contact. -/
lemma own_new (h : Accounted start s) : s.own s.workers.length = [] := by
  rw [Scene.own, List.map_eq_nil_iff, List.filter_eq_nil_iff]
  intro e he
  have hne : e.1 ≠ s.workers.length := Nat.ne_of_lt (h.present e he)
  simpa using hne

/-- **A caller comes.** -/
lemma come (h : Accounted start s) (call : Call ρ) (loaded : Option (Except LoadFailure Value)) :
    Accounted start { s with
      workers := s.workers ++ [⟨call, some (call.program s.cache.setup), loaded⟩] } := by
  have hworker : ∀ (i : Caller) (w : Worker ρ),
      (s.workers ++ [⟨call, some (call.program s.cache.setup), loaded⟩])[i]? = some w →
        s.workers[i]? = some w ∨
          (i = s.workers.length ∧ w = ⟨call, some (call.program s.cache.setup), loaded⟩) := by
    intro i w hw
    rw [List.getElem?_append] at hw
    split at hw
    · exact .inl hw
    · rename_i hle
      rw [List.getElem?_singleton] at hw
      split at hw
      · rename_i hzero
        exact .inr ⟨Nat.le_antisymm (Nat.le_of_sub_eq_zero hzero) (Nat.le_of_not_lt hle),
          (Option.some.inj hw).symm⟩
      · cases hw
  refine ⟨h.setup, fun e he => ?_, fun i hi => ?_, fun i w hw hi => ?_, fun i w hw => ?_,
    fun i w p hw hp => ?_, h.led⟩
  · rw [List.length_append]
    exact Nat.lt_add_right _ (h.present e he)
  · rw [List.length_append]
    exact Nat.lt_add_right _ (h.known i hi)
  · rcases hworker i w hw with hw | ⟨rfl, -⟩
    · exact h.still i w hw hi
    · exact absurd (h.known _ hi) (Nat.lt_irrefl _)
  · rcases hworker i w hw with hw | ⟨rfl, rfl⟩
    · exact h.begun i w hw
    · show Begins _ call (s.own s.workers.length)
      obtain ⟨log, r, htrace⟩ := Trace.exists_trace start.setup (call.program start.setup)
      exact ⟨log, r, h.own_new ▸ htrace⟩
  · rcases hworker i w hw with hw | ⟨rfl, rfl⟩
    · exact h.going i w p hw hp
    · intro log r htrace
      obtain rfl := Option.some.inj hp
      show Trace _ _ (s.own s.workers.length ++ log) r
      rw [h.own_new]
      exact h.setup ▸ htrace

/-- **A loader gives what it gives.** -/
lemma supply (h : Accounted start s) (i : Caller) (answer : Except LoadFailure Value) :
    Accounted start
      { s with workers := s.workers.modify i fun w => { w with loaded := some answer } } := by
  have hworker : ∀ (w : Caller) (x : Worker ρ),
      (s.workers.modify i fun w => { w with loaded := some answer })[w]? = some x →
        ∃ y, s.workers[w]? = some y ∧ x.call = y.call ∧ x.rest = y.rest := by
    intro w x hx
    rcases worker_modify hx with ⟨rfl, y, hy, rfl⟩ | ⟨-, hx⟩
    · exact ⟨y, hy, rfl, rfl⟩
    · exact ⟨x, hx, rfl, rfl⟩
  refine ⟨h.setup, fun e he => ?_, fun i hi => ?_, fun w x hx hi => ?_, fun w x hx => ?_,
    fun w x p hx hp => ?_, h.led⟩
  · rw [List.length_modify]
    exact h.present e he
  · rw [List.length_modify]
    exact h.known i hi
  · obtain ⟨y, hy, -, hrest⟩ := hworker w x hx
    rw [hrest]
    exact h.still w y hy hi
  · obtain ⟨y, hy, hcall, -⟩ := hworker w x hx
    rw [hcall]
    exact h.begun w y hy
  · obtain ⟨y, hy, hcall, hrest⟩ := hworker w x hx
    rw [hcall]
    exact h.going w y p hy (hrest ▸ hp)

/-- **A caller falls** that has nothing left. -/
lemma fell (h : Accounted start s) {y : Worker ρ} (hy : s.workers[i]? = some y)
    (hrest : y.rest = none) : Accounted start (s.fell i) := by
  refine ⟨h.setup, h.present, fun w hw => ?_, fun w x hx hfallen => ?_, h.begun, h.going,
    h.led.leave fun w => ?_⟩
  · rcases List.mem_append.mp hw with hw | hw
    · exact h.known w hw
    · obtain rfl := List.mem_singleton.mp hw
      exact (List.getElem?_eq_some_iff.mp hy).1
  · rcases List.mem_append.mp hfallen with hw | hw
    · exact h.still w x hx hw
    · obtain rfl := List.mem_singleton.mp hw
      obtain rfl := Option.some.inj (hy.symm.trans hx)
      exact hrest
  · show w ∈ s.fallen ++ [i] ↔ _
    rw [List.mem_append, List.mem_singleton]

/-- **A caller has taken a step** that makes the contact `x`, and `rest` is left of its program. -/
lemma moved (h : Accounted start s) {y : Worker ρ} {p : Prog Unit} (hy : s.workers[i]? = some y)
    (hp : y.rest = some p) {c : Cache σ} {x : Option Contact} {rest : Option (Prog Unit)}
    (hc : c.setup = start.setup) (hdealt : Dealt i s.cache.flights x c.flights)
    (hbegins : ∃ log r, Trace start.setup p (x.toList ++ log) r)
    (hrest : ∀ q, rest = some q → ∀ log r, Trace start.setup q log r →
      Trace start.setup p (x.toList ++ log) r) :
    Accounted start ({ s with
      cache := c
      log := s.log ++ x.toList.map (i, ·) : Scene σ ρ }.setRest i rest) := by
  let s' : Scene σ ρ := { s with cache := c, log := s.log ++ x.toList.map (i, ·) }
  have hown : ∀ w, (s'.setRest i rest).own w = s.own w ++ if w = i then x.toList else [] :=
    fun w => Contact.own_append s.log x.toList i w
  have hself : (s'.setRest i rest).own i = s.own i ++ x.toList := by rw [hown, if_pos rfl]
  have hothers : ∀ w, w ≠ i → (s'.setRest i rest).own w = s.own w := by
    intro w hw
    rw [hown, if_neg hw, List.append_nil]
  have hbegun : Begins start.setup y.call ((s'.setRest i rest).own i) := by
    obtain ⟨log, r, htrace⟩ := hbegins
    refine ⟨log, r, ?_⟩
    rw [hself, List.append_assoc]
    exact h.going i y p hy hp _ _ htrace
  have hup : i ∉ s.fallen := by
    intro hi
    have hnone := h.still i y hy hi
    rw [hp] at hnone
    cases hnone
  refine ⟨hc, fun e he => ?_, fun w hw => ?_, fun w z hz hfallen => ?_, fun w z hz => ?_,
    fun w z q hz hq => ?_, h.led.step hdealt hup hself hothers hbegun.stage⟩
  · show e.1 < (s.workers.modify i _).length
    rw [List.length_modify]
    rcases List.mem_append.mp he with he | he
    · exact h.present e he
    · obtain ⟨x', -, rfl⟩ := List.mem_map.mp he
      exact (List.getElem?_eq_some_iff.mp hy).1
  · show w < (s.workers.modify i _).length
    rw [List.length_modify]
    exact h.known w hw
  · rcases worker_modify hz with ⟨rfl, -⟩ | ⟨-, hz⟩
    · exact absurd hfallen hup
    · exact h.still w z hz hfallen
  · rcases worker_modify hz with ⟨rfl, z', hz', rfl⟩ | ⟨hne, hz⟩
    · obtain rfl := Option.some.inj (hy.symm.trans hz')
      exact hbegun
    · rw [hothers w hne]
      exact h.begun w z hz
  · rcases worker_modify hz with ⟨rfl, z', hz', rfl⟩ | ⟨hne, hz⟩
    · obtain rfl := Option.some.inj (hy.symm.trans hz')
      intro log r htrace
      rw [hself, List.append_assoc]
      exact h.going w y p hy hp _ _ (hrest q hq log r htrace)
    · rw [hothers w hne]
      exact h.going w z q hz hq

/-- What is changed of a worker when its rest is set. -/
lemma worker_setRest {y : Worker ρ} (hy : s.workers[i]? = some y) (rest : Option (Prog Unit)) :
    (s.setRest i rest).workers[i]? = some { y with rest := rest } := by
  show (s.workers.modify i _)[i]? = _
  simp [hy]

/-- **A caller is dropped.** -/
lemma drop (h : Accounted start s) {y : Worker ρ} {p : Prog Unit} (hy : s.workers[i]? = some y)
    (hp : y.rest = some p) : Accounted start ((s.setRest i none).fell i) := by
  obtain ⟨log, r, htrace⟩ := Trace.exists_trace start.setup p
  have hnone : ∀ q, (none : Option (Prog Unit)) = some q → ∀ log r, Trace start.setup q log r →
      Trace start.setup p ((none : Option Contact).toList ++ log) r := by
    intro q hq
    cases hq
  have hmoved := h.moved (x := none) hy hp h.setup (.free (by simp)) ⟨log, r, htrace⟩ hnone
  simp only [Option.toList_none, List.map_nil, List.append_nil] at hmoved
  exact hmoved.fell (worker_setRest hy none) rfl

variable [FarStore σ]

/-- **A caller takes a step.** -/
lemma go (h : Accounted start s) {y : Worker ρ} {p : Prog Unit} (hy : s.workers[i]? = some y)
    (hp : y.rest = some p) (now : Instant) (loaded : Option (Except LoadFailure Value)) :
    Accounted start (s.go ⟨now, i, loaded⟩ p) := by
  have hsetup : (p.step ⟨now, i, loaded⟩ s.cache).2.setup = start.setup :=
    (Prog.setup_step _ p s.cache).trans h.setup
  have hdealt := dealt_step ⟨now, i, loaded⟩ p s.cache
  unfold Scene.go
  rcases hstep : p.step ⟨now, i, loaded⟩ s.cache with ⟨how | rest, c⟩
  · rw [hstep] at hsetup hdealt
    have hstops := Trace.of_stops h.setup hstep
    have hbegins : ∃ log r, Trace start.setup p
        ((p.contact ⟨now, i, loaded⟩ s.cache).toList ++ log) r :=
      ⟨[], how, (List.append_nil _).symm ▸ hstops⟩
    cases how with
    | finished a => exact h.moved hy hp hsetup hdealt hbegins (by simp)
    | blocked rest =>
      refine h.moved hy hp hsetup hdealt hbegins fun q hq log r htrace => ?_
      obtain rfl := Option.some.inj hq
      exact Trace.resume hstops htrace
    | crashed =>
      have hnone : ∀ q, (none : Option (Prog Unit)) = some q → ∀ log r,
          Trace start.setup q log r →
            Trace start.setup p ((p.contact ⟨now, i, loaded⟩ s.cache).toList ++ log) r := by
        intro q hq
        cases hq
      have hworker := worker_setRest hy none
      exact (h.moved hy hp hsetup hdealt hbegins hnone).fell hworker rfl
  · rw [hstep] at hsetup hdealt
    have hgoes : ∀ log r, Trace start.setup rest log r →
        Trace start.setup p ((p.contact ⟨now, i, loaded⟩ s.cache).toList ++ log) r :=
      fun log r htrace => .of_goes h.setup hstep htrace
    obtain ⟨log, r, htrace⟩ := Trace.exists_trace start.setup rest
    refine h.moved hy hp hsetup hdealt ⟨_, _, hgoes log r htrace⟩ fun q hq => ?_
    obtain rfl := Option.some.inj hq
    exact hgoes

/-- **Every event** keeps what holds. -/
theorem step (h : Accounted start s) (e : Act ρ) : Accounted start (s.step e) := by
  cases e with
  | come call loaded => exact h.come call loaded
  | go now i =>
    simp only [Scene.step]
    split
    next call p loaded hy => exact h.go hy rfl now loaded
    next => exact h
  | drop i =>
    simp only [Scene.step]
    split
    next call p loaded hy => exact h.drop hy rfl
    next => exact h
  | supply i answer => exact h.supply i answer

end Accounted

/-- What holds after every course of events. -/
theorem accounted_after [FarStore σ] (hf : start.flights.Orderly) (acts : List (Act ρ)) :
    Accounted start (after start acts) := by
  induction acts using List.reverseRecOn with
  | nil => exact accounted_nil hf
  | append_singleton acts e ih =>
    rw [after_snoc]
    exact ih.step e

end Events

/-! ## Loads are bounded -/

section Bounds

variable {start : Cache σ} {s : Scene σ ρ}

/-- The leaders of a shared run are the callers that have begun it. -/
lemma mem_leaders {place : Nat} {i : Caller} :
    i ∈ s.leaders place ↔ i < s.workers.length ∧ .lead place ∈ s.own i := by
  unfold Scene.leaders
  rw [List.mem_filter, List.mem_range, List.any_eq_true]
  refine and_congr_right fun _ => ⟨?_, fun h => ⟨_, h, by simp⟩⟩
  rintro ⟨x, hx, hlead⟩
  cases x <;> simp at hlead
  subst hlead
  exact hx

/-- All leaders of a shared run but one have fallen. -/
lemma Accounted.standing_le_one (h : Accounted start s) (place : Nat) :
    ((s.leaders place).filter fun i => !decide (i ∈ s.fallen)).length ≤ 1 := by
  have hnodup : ((s.leaders place).filter fun i => !decide (i ∈ s.fallen)).Nodup :=
    (List.nodup_range.filter _).filter _
  refine SharedLoad.length_le_one hnodup fun i hi j hj => ?_
  obtain ⟨hi, hup⟩ := List.mem_filter.mp hi
  obtain ⟨hj, hup'⟩ := List.mem_filter.mp hj
  exact h.led.single i j place (mem_leaders.mp hi).2 (mem_leaders.mp hj).2 (by simpa using hup)
    (by simpa using hup')

/-- **A shared run** costs one of each kind, and one more for each leader that has fallen.

**Proof sketch.** Each leader does one of a kind inside the run at most, and all leaders but one
have fallen. -/
lemma Accounted.cost_le (h : Accounted start s) (place : Nat) {k : Kind} (hk : k ≠ .share)
    (hk' : k ≠ .any) :
    s.cost k place ≤ 1 + ((s.leaders place).filter (· ∈ s.fallen)).length := by
  have heach : s.cost k place ≤ (s.leaders place).length := by
    refine (List.sum_le_card_nsmul _ 1 fun n hn => ?_).trans (by simp)
    obtain ⟨i, hi, rfl⟩ := List.mem_map.mp hn
    have hworker := List.getElem?_eq_getElem (mem_leaders.mp hi).1
    exact (h.begun i _ hworker).inside_le hk hk'
  have hsplit := List.length_eq_length_filter_add (l := s.leaders place)
    fun i => decide (i ∈ s.fallen)
  have hrest := h.standing_le_one place
  omega

variable [FarStore σ]

/-- **A caller that goes on ends**, unless it waits for another caller's run. -/
lemma Accounted.ends (h : Accounted start s) {i : Caller} {w : Worker ρ} {p : Prog Unit}
    (hw : s.workers[i]? = some w) (hp : w.rest = some p) {visit : Visit} {c : Cache σ}
    {answer : Except LoadFailure Value} (hc : c.setup = start.setup)
    (hloaded : visit.loaded = some answer) :
    (p.run visit c).1 = .finished () ∨
      ((p.run visit c).1 = .crashed ∧ ∃ x ∈ p.contacts visit c, x.Fatal) ∨
      (mayShare w.call = true ∧ (p.run visit c).1.Queued) := by
  have htrace : Trace start.setup p (p.contacts visit c) (p.run visit c).1 :=
    hc ▸ Prog.trace_contacts visit p c
  cases hr : (p.run visit c).1 with
  | finished a => exact .inl rfl
  | crashed =>
    rw [hr] at htrace
    exact .inr (.inl ⟨rfl, htrace.of_crashed⟩)
  | blocked rest =>
    have hqueued := Prog.queued_of_blocked hloaded hr
    rw [hr] at htrace
    have hwhole := h.going i w p hw hp _ _ htrace
    cases hshare : mayShare w.call with
    | true => exact .inr (.inr ⟨rfl, hqueued⟩)
    | false => exact absurd hqueued (call_within hshare _ _ hwhole).2

/-- **Loads are bounded and end.** Whatever the far tier answers and however callers of any calls
come, take their steps, are given values and are dropped: reading or computing makes at most two
look-ups in the far tier, one deletion and one write, and runs its loader and drops an entry once;
so does a shared load, one look-up before it joins and the rest inside the run that it leads; a
shared run is led by one caller that has not fallen; and a caller that goes on ends unless it waits
for another caller's run.

**Proof sketch.** The contacts of a caller begin a trace of its program, whose limits are known.
That one leader stands is an invariant of the table of shared runs together with the contacts. -/
theorem loads_bounded (start : Cache σ) (hf : start.flights.Orderly) (acts : List (Act ρ)) :
    Bounded start (after start acts) := by
  have h : Accounted start (after start acts) := accounted_after hf acts
  exact {
    calls := fun i w hw => (h.begun i w hw).atMost
    shared := fun i w hw hshare => (h.begun i w hw).atMost_shared hshare
    runs := fun place k hk hk' => h.cost_le place hk hk'
    ends := fun i w p hw hp visit c answer hc hloaded => h.ends hw hp hc hloaded }

end Bounds

/-! ## A far tier that never gets better -/

section Stubborn

open Far

/-- A far tier that answers every read with bytes that cannot be decoded and loses deletions. -/
def stubborn : Cache (Drill MemoryStore) :=
  { far := some { store := {}, mishaps := [(.delete, .lost)], fixed := some [7] } }

/-- A shared load. -/
def stubbornLoad : Call Unit :=
  .once (.scalar (.int .int64)) { key := "k", loader := some () }

/-- Two callers of a key. The first one is dropped when it has started its loader, and the second
one, which waits for it, goes on. -/
def stubbornCourse : List (Act Unit) :=
  [.come stubbornLoad none, .come stubbornLoad (some (.ok (.int 7)))] ++
    List.replicate 11 (.go 0 0) ++ List.replicate 6 (.go 0 1) ++ [.drop 0] ++
    List.replicate 14 (.go 0 1)

/-- Loads are bounded there, and all limits are reached: the second caller looks up twice, drops the
entry, starts its loader and writes, and with two leaders the run has cost two loads. -/
theorem loads_bounded_stubborn :
    stubborn.flights.Orderly ∧
      ([.get, .delete, .write, .load, .heal].map fun k =>
        spent k ((after stubborn stubbornCourse).own 1)) = [2, 1, 1, 1, 1] ∧
      (after stubborn stubbornCourse).leaders 0 = [0, 1] ∧
      (after stubborn stubbornCourse).cost .load 0 = 2 ∧
      Bounded stubborn (after stubborn stubbornCourse) :=
  ⟨Flight.Group.orderly_empty, by decide +kernel, by decide +kernel, by decide +kernel,
    loads_bounded stubborn Flight.Group.orderly_empty stubbornCourse⟩

end Stubborn

end LayeredCache.Effort
