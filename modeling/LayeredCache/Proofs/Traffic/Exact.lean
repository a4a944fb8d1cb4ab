import LayeredCache.Proofs.Traffic.Dues
import LayeredCache.Far.Drill
import Mathlib.Algebra.BigOperators.Fin
import Mathlib.Data.Set.Card

/-!
# Counters are exact

Callers make calls on a cache with counters and a tally, one after the other or at the same time,
and the tally is started again now and then. Whatever the tiers answer, the counters show at any
time how often each tier was asked with which result, how many values were computed in each way,
and how many entries were dropped, and the tally shows what has happened since it was started
again.

## Main definitions

* `Traffic.Act`, `Traffic.Scene`, `Traffic.after` — what happens, and what it leads to.
* `Traffic.Exact` — what the counters and the tally of a scene show.

## Main results

* `Traffic.Accounted.step` — what holds after every event.
* `Traffic.counters_exact` — counters are exact.
-/

set_option autoImplicit false

namespace LayeredCache.Traffic

open Prog (Trace)
open Flight (Caller)
open Serial (Call)

variable {ρ σ : Type}

/-! ## Scenes -/

/-- A call and what is left of it. -/
structure Client (ρ : Type) where
  call : Call ρ
  /-- What is left of its program; nothing when it ended or was dropped. -/
  rest : Option (Prog Unit)

/-- Something that happens. -/
inductive Act (ρ : Type) where
  /-- A call is made, and goes on until it ends or has to wait. -/
  | call (now : Instant) (call : Call ρ) (loaded : Option (Except LoadFailure Value))
  /-- A call that has to wait goes on; its loader may have given its answer by now. -/
  | poll (now : Instant) (caller : Caller) (loaded : Option (Except LoadFailure Value))
  /-- A call is dropped. -/
  | drop (caller : Caller)
  /-- The tally is started again. -/
  | reset

/-- A cache with the calls that were made, known by their places. -/
structure Scene (σ ρ : Type) where
  cache : Cache σ
  clients : List (Client ρ) := []
  /-- The contacts of all calls, in order. -/
  log : List (Caller × Contact) := []
  /-- Those since the tally was started again. -/
  recent : List Contact := []

namespace Scene

/-- The contacts of a call. -/
def own (s : Scene σ ρ) (i : Caller) : List Contact :=
  (s.log.filter fun e => e.1 = i).map Prod.snd

/-- What is left of a program that has come so far. -/
def left : Progress Unit → Option (Prog Unit)
  | .blocked rest => some rest
  | _ => none

variable [FarStore σ]

/-- A call goes on; the calls that were made are now given by what is left of it. -/
def visit (s : Scene σ ρ) (v : Visit) (p : Prog Unit)
    (clients : Option (Prog Unit) → List (Client ρ)) : Scene σ ρ where
  cache := (p.visit v s.cache).2
  clients := clients (left (p.visit v s.cache).1)
  log := s.log ++ (p.contacts v s.cache).map (v.caller, ·)
  recent := s.recent ++ p.contacts v s.cache

/-- The scene after something has happened. -/
def step (s : Scene σ ρ) : Act ρ → Scene σ ρ
  | .call now call loaded =>
    s.visit ⟨now, s.clients.length, loaded⟩ (call.program s.cache.setup) fun rest =>
      s.clients ++ [⟨call, rest⟩]
  | .poll now i loaded =>
    match s.clients[i]? with
    | some ⟨call, some p⟩ => s.visit ⟨now, i, loaded⟩ p fun rest => s.clients.set i ⟨call, rest⟩
    | _ => s
  | .drop i =>
    match s.clients[i]? with
    | some ⟨call, some _⟩ =>
      { s with
        cache := { s.cache with flights := s.cache.flights.leave i }
        clients := s.clients.set i ⟨call, none⟩ }
    | _ => s
  | .reset => { s with cache := s.cache.resetTally, recent := [] }

end Scene

/-- The scene after a course of events that begins with a cache. -/
def after [FarStore σ] (start : Cache σ) (acts : List (Act ρ)) : Scene σ ρ :=
  acts.foldl Scene.step { cache := start }

/-- One more event. -/
lemma after_snoc [FarStore σ] (start : Cache σ) (acts : List (Act ρ)) (e : Act ρ) :
    after start (acts ++ [e]) = (after start acts).step e := by
  rw [after, List.foldl_append]
  rfl

/-! ## What is said of a scene -/

/-- Whether a contact is a look-up in the near tier. -/
def looksUp : Contact → Bool
  | .find _ _ => true
  | _ => false

/-- A tally and counters are exact. -/
structure Exact (s : Scene σ ρ) (t : Tally) (k : Counters) : Prop where
  /-- The tally shows how many look-ups in the far tier were answered since it was started again. -/
  hits : t.hits = s.recent.countP answered
  /-- And how many have failed. -/
  misses : t.misses = s.recent.countP unanswered
  /-- So do the counters of the far tier, whether the tally was started again or not. -/
  farHits : k.hits.count farLabel = s.log.countP fun e => answered e.2
  farMisses : k.misses.count farLabel = s.log.countP fun e => unanswered e.2
  /-- The counters of the near tier show how many look-ups there found something, readable or
  not. -/
  nearHits : k.hits.count nearLabel = s.log.countP fun e => served e.2
  /-- And how many have found nothing. -/
  nearMisses : k.misses.count nearLabel = s.log.countP fun e => unserved e.2
  /-- Together these are all look-ups in the near tier. -/
  near : k.hits.count nearLabel + k.misses.count nearLabel = s.log.countP fun e => looksUp e.2
  /-- The counters of loads show how many calls went on to compute a value in each way. -/
  loads : ∀ mode, k.loads.count mode =
    {i | ∃ w, s.clients[i]? = some w ∧ Produces s.cache.setup w.call mode (s.own i)}.ncard
  /-- When there is a far tier and no call skips it, each deletion there was either called for or
  has dropped an entry. -/
  heals : s.cache.far.isSome → (∀ w ∈ s.clients, skipsFar w.call = false) →
    k.heals + s.clients.countP (fun w => deletes w.call) = s.log.countP fun e => removes e.2

/-! ## What holds after every event -/

/-- What holds between two events. -/
structure Accounted (start : Cache σ) (s : Scene σ ρ) : Prop where
  setup : s.cache.setup = start.setup
  present : ∀ e ∈ s.log, e.1 < s.clients.length
  shows : s.cache.Shows s.recent (s.log.map Prod.snd)
  recent : Balanced .tallyHit s.recent ∧ Balanced .tallyMiss s.recent
  /-- The contacts of a call are what its program goes through up to what is left of it. -/
  going : ∀ (i : Caller) (w : Client ρ), s.clients[i]? = some w →
    ∃ r, Trace start.setup (w.call.program start.setup) (s.own i) r ∧
      ∀ p, w.rest = some p → r = .blocked p

section Events

variable {start : Cache σ} {s : Scene σ ρ} {i w : Caller}

namespace Accounted

/-- A call that has not been made has made no contact. -/
lemma own_new (h : Accounted start s) : s.own s.clients.length = [] := by
  rw [Scene.own, List.map_eq_nil_iff, List.filter_eq_nil_iff]
  intro e he
  have hne : e.1 ≠ s.clients.length := Nat.ne_of_lt (h.present e he)
  simpa using hne

/-- What a call has counted for the tally so far. -/
lemma balanced_own (h : Accounted start s) {x : Client ρ} (hx : s.clients[i]? = some x)
    {a : Account} (ha : a = .tallyHit ∨ a = .tallyMiss) : Balanced a (s.own i) := by
  obtain ⟨r, htrace, -⟩ := h.going i x hx
  rcases ha with rfl | rfl <;> exact call_settles htrace rfl (by simp [Settled])

/-- **A call goes on**: `clients` says where it stands among the calls.

**Proof sketch.** Its contacts are those of its program up to a point where it waits or ends, before
the visit and after it, so that it has counted all that it had to count in between. -/
lemma visit [FarStore σ] (h : Accounted start s) (v : Visit) (call : Call ρ) {p : Prog Unit}
    (clients : Option (Prog Unit) → List (Client ρ))
    (hlength : ∀ rest, s.clients.length ≤ (clients rest).length)
    (hself : ∀ rest, (clients rest)[v.caller]? = some ⟨call, rest⟩)
    (hothers : ∀ rest w, w ≠ v.caller → (clients rest)[w]? = s.clients[w]?)
    (hbefore : ∀ a, a = .tallyHit ∨ a = .tallyMiss → Balanced a (s.own v.caller))
    (hgoing : ∀ log r, Trace start.setup p log r →
      Trace start.setup (call.program start.setup) (s.own v.caller ++ log) r) :
    Accounted start (s.visit v p clients) := by
  have htrace : Trace start.setup p (p.contacts v s.cache) (p.run v s.cache).1 :=
    h.setup ▸ Prog.trace_contacts v p s.cache
  have hwhole := hgoing _ _ htrace
  have hown : ∀ w, (s.visit v p clients).own w =
      s.own w ++ if w = v.caller then p.contacts v s.cache else [] :=
    fun w => Contact.own_append s.log _ v.caller w
  have hbalanced : ∀ a, a = .tallyHit ∨ a = .tallyMiss → Balanced a (p.contacts v s.cache) := by
    intro a ha
    have hboth : Balanced a (s.own v.caller ++ p.contacts v s.cache) := by
      rcases ha with rfl | rfl <;> exact call_settles hwhole rfl (by simp [Settled])
    have hfirst := hbefore a ha
    unfold Balanced at hboth hfirst ⊢
    rw [List.countP_append, List.countP_append] at hboth
    omega
  refine ⟨(Prog.setup_visit v p s.cache).trans h.setup, fun e he => ?_, ?_, ?_, fun w x hx => ?_⟩
  · rcases List.mem_append.mp he with he | he
    · exact Nat.lt_of_lt_of_le (h.present e he) (hlength _)
    · obtain ⟨x, -, rfl⟩ := List.mem_map.mp he
      exact (List.getElem?_eq_some_iff.mp (hself _)).1
  · have hshows := h.shows.visit v p
    have hlog : (s.visit v p clients).log.map Prod.snd =
        s.log.map Prod.snd ++ p.contacts v s.cache := by
      simp [Scene.visit, Function.comp_def]
    rw [hlog]
    exact hshows
  · exact ⟨h.recent.1.append (hbalanced _ (.inl rfl)), h.recent.2.append (hbalanced _ (.inr rfl))⟩
  · by_cases hw : w = v.caller
    · subst hw
      obtain rfl := Option.some.inj ((hself _).symm.trans hx)
      refine ⟨(p.run v s.cache).1, ?_, fun q hq => ?_⟩
      · rw [hown, if_pos rfl]
        exact hwhole
      · rw [Prog.progress_visit] at hq
        cases hr : (p.run v s.cache).1 <;> rw [hr] at hq <;> cases hq
        rfl
    · rw [hown, if_neg hw, List.append_nil]
      exact h.going w x ((hothers _ w hw).symm.trans hx)

/-- **A call is made.** -/
lemma call [FarStore σ] (h : Accounted start s) (now : Instant) (call : Call ρ)
    (loaded : Option (Except LoadFailure Value)) :
    Accounted start (s.step (.call now call loaded)) := by
  refine h.visit ⟨now, s.clients.length, loaded⟩ call (fun rest => s.clients ++ [⟨call, rest⟩])
    (fun rest => ?_) (fun rest => ?_) (fun rest w hw => ?_) (fun a _ => ?_) fun log r htrace => ?_
  · rw [List.length_append]
    exact Nat.le_add_right _ _
  · exact List.getElem?_concat_length
  · rcases Nat.lt_or_gt_of_ne hw with hlt | hgt
    · exact List.getElem?_append_left hlt
    · rw [List.getElem?_eq_none (Nat.le_of_lt hgt), List.getElem?_eq_none]
      rw [List.length_append]
      exact hgt
  · rw [h.own_new]
    exact .nil
  · rw [h.own_new]
    exact h.setup ▸ htrace

/-- **A call that has to wait goes on.** -/
lemma poll [FarStore σ] (h : Accounted start s) (now : Instant) (i : Caller)
    (loaded : Option (Except LoadFailure Value)) :
    Accounted start (s.step (.poll now i loaded)) := by
  simp only [Scene.step]
  split
  next call p hi =>
    obtain ⟨r, htrace, hr⟩ := h.going i _ hi
    have hlt := (List.getElem?_eq_some_iff.mp hi).1
    refine h.visit ⟨now, i, loaded⟩ call (fun rest => s.clients.set i ⟨call, rest⟩)
      (fun rest => ?_) (fun rest => ?_) (fun rest w hw => ?_) (fun a ha => h.balanced_own hi ha)
      fun log r' htrace' => ?_
    · rw [List.length_set]
    · exact List.getElem?_set_self hlt
    · exact List.getElem?_set_ne (Ne.symm hw)
    · rw [hr p rfl] at htrace
      exact htrace.resume htrace'
  next => exact h

/-- **A call is dropped.** -/
lemma drop [FarStore σ] (h : Accounted start s) (i : Caller) :
    Accounted start (s.step (.drop i)) := by
  simp only [Scene.step]
  split
  next call p hi =>
    refine ⟨h.setup, fun e he => ?_, ⟨h.shows.tally, h.shows.counters⟩, h.recent, fun w x hx => ?_⟩
    · rw [List.length_set]
      exact h.present e he
    · by_cases hw : i = w
      · subst hw
        rw [List.getElem?_set_self (List.getElem?_eq_some_iff.mp hi).1] at hx
        obtain rfl := Option.some.inj hx
        obtain ⟨r, htrace, -⟩ := h.going i _ hi
        exact ⟨r, htrace, by simp⟩
      · rw [List.getElem?_set_ne hw] at hx
        exact h.going w x hx
  next => exact h

/-- **The tally is started again.** -/
lemma reset [FarStore σ] (h : Accounted start s) : Accounted start (s.step .reset) := by
  obtain ⟨t, ht, -⟩ := h.shows.tally
  exact ⟨h.setup, h.present, ⟨⟨{}, congrArg (Option.map _) ht, ⟨rfl, rfl⟩⟩, h.shows.counters⟩,
    ⟨.nil, .nil⟩, h.going⟩

/-- **Every event** keeps what holds. -/
theorem step [FarStore σ] (h : Accounted start s) (e : Act ρ) : Accounted start (s.step e) := by
  cases e with
  | call now call loaded => exact h.call now call loaded
  | poll now i loaded => exact h.poll now i loaded
  | drop i => exact h.drop i
  | reset => exact h.reset

end Accounted

/-- What holds after every course of events. -/
theorem accounted_after [FarStore σ] (htally : start.tally = some {})
    (hcounters : start.counters = some {}) (acts : List (Act ρ)) :
    Accounted start (after start acts) := by
  induction acts using List.reverseRecOn with
  | nil =>
    exact {
      setup := rfl
      present := by simp [after]
      shows := ⟨⟨{}, htally, ⟨rfl, rfl⟩⟩, {}, hcounters,
        ⟨fun _ => rfl, fun _ => rfl, fun _ => rfl, rfl, .nil, .nil, .nil⟩⟩
      recent := ⟨.nil, .nil⟩
      going := by simp [after] }
  | append_singleton acts e ih =>
    rw [after_snoc]
    exact ih.step e

end Events

/-! ## Sums over calls -/

/-- The contacts of a kind are those of all callers. -/
lemma countP_eq_sum {log : List (Caller × Contact)} {n : Nat} (h : ∀ e ∈ log, e.1 < n)
    (P : Contact → Bool) :
    log.countP (fun e => P e.2) =
      ∑ i ∈ Finset.range n, ((log.filter fun e => e.1 = i).map Prod.snd).countP P := by
  induction log with
  | nil => simp
  | cons e log ih =>
    have hlt : e.1 < n := h e List.mem_cons_self
    have hcons : ∀ i, (((e :: log).filter fun e => e.1 = i).map Prod.snd).countP P =
        ((log.filter fun e => e.1 = i).map Prod.snd).countP P +
          if e.1 = i then (if P e.2 then 1 else 0) else 0 := by
      intro i
      by_cases hi : e.1 = i
      · simp [hi, List.countP_cons]
      · simp [hi]
    rw [List.countP_cons, ih fun e' he' => h e' (List.mem_cons_of_mem _ he'),
      Finset.sum_congr rfl fun i _ => hcons i, Finset.sum_add_distrib, Finset.sum_ite_eq]
    simp [hlt]

/-- The members of a list that have a property. -/
lemma countP_eq_sum_getElem {α : Type} (P : α → Bool) (l : List α) :
    l.countP P = ∑ i ∈ Finset.range l.length, if l[i]?.any P then 1 else 0 := by
  induction l with
  | nil => rfl
  | cons x l ih =>
    rw [List.countP_cons, ih, List.length_cons, Finset.sum_range_succ']
    simp

/-! ## Counters are exact -/

section Counters

variable {start : Cache σ} {s : Scene σ ρ}

/-- A look-up in the near tier finds something or does not. -/
lemma served_add_unserved (log : List (Caller × Contact)) :
    log.countP (fun e => served e.2) + log.countP (fun e => unserved e.2) =
      log.countP fun e => looksUp e.2 := by
  induction log with
  | nil => rfl
  | cons e log ih =>
    obtain ⟨i, x⟩ := e
    rw [List.countP_cons, List.countP_cons, List.countP_cons, ← ih]
    cases x with
    | find key content => cases content <;> simp [served, unserved, looksUp] <;> omega
    | _ => simp [served, unserved, looksUp]

namespace Accounted

/-- **What has to be counted is counted**, apart from the deletions that were called for. -/
lemma owes_eq (h : Accounted start s) {a : Account} (hdue : a.isDue = true)
    (hreach : a = .removal → start.setup.far = true ∧ ∀ w ∈ s.clients, skipsFar w.call = false) :
    s.log.countP (fun e => a.owes e.2) = s.log.countP (fun e => a.pays e.2) +
      ∑ i ∈ Finset.range s.clients.length, s.clients[i]?.elim 0 fun w => a.uncounted w.call := by
  rw [countP_eq_sum h.present, countP_eq_sum h.present, ← Finset.sum_add_distrib]
  refine Finset.sum_congr rfl fun i hi => ?_
  have hclient := List.getElem?_eq_getElem (Finset.mem_range.mp hi)
  obtain ⟨r, htrace, -⟩ := h.going i _ hclient
  rw [hclient]
  refine call_settles htrace hdue fun ha => ?_
  exact ⟨(hreach ha).1, (hreach ha).2 _ (List.getElem_mem _)⟩

/-- **Look-ups are counted.** -/
lemma look_ups_eq (h : Accounted start s) {a : Account} (hdue : a.isDue = true)
    (ha : a ≠ .removal) :
    s.log.countP (fun e => a.pays e.2) = s.log.countP fun e => a.owes e.2 := by
  have hnone : ∑ i ∈ Finset.range s.clients.length,
      (s.clients[i]?.elim 0 fun w => a.uncounted w.call) = 0 := by
    refine Finset.sum_eq_zero fun i _ => ?_
    cases s.clients[i]? with
    | none => rfl
    | some w => cases a <;> first | rfl | exact absurd rfl ha
  rw [h.owes_eq hdue fun heq => absurd heq ha, hnone, Nat.add_zero]

/-- **Deletions are counted** or were called for. -/
lemma removals_eq (h : Accounted start s) (hfar : start.setup.far = true)
    (hskips : ∀ w ∈ s.clients, skipsFar w.call = false) :
    s.log.countP (fun e => Contact.counts .heal e.2) +
        s.clients.countP (fun w => deletes w.call) = s.log.countP fun e => removes e.2 := by
  refine Eq.trans ?_ (h.owes_eq (a := .removal) rfl fun _ => ⟨hfar, hskips⟩).symm
  rw [countP_eq_sum_getElem (fun w : Client ρ => deletes w.call)]
  refine congrArg₂ (· + ·) rfl (Finset.sum_congr rfl fun i _ => ?_)
  cases s.clients[i]? <;> rfl

/-- **Values that are computed are counted**, one for each call that goes on to compute a value. -/
lemma loads_eq (h : Accounted start s) (mode : String) :
    s.log.countP (fun e => Contact.counts (.load mode) e.2) =
      {i | ∃ w, s.clients[i]? = some w ∧ Produces start.setup w.call mode (s.own i)}.ncard := by
  classical
  let count : Caller → Nat := fun i => (s.own i).countP (Contact.counts (.load mode))
  have hcount : ∀ i w, s.clients[i]? = some w →
      (Produces start.setup w.call mode (s.own i) ∧ count i = 1) ∨
        (¬ Produces start.setup w.call mode (s.own i) ∧ count i = 0) := by
    intro i w hw
    obtain ⟨r, htrace, -⟩ := h.going i w hw
    exact loads_of_trace htrace mode
  have hset : {i | ∃ w, s.clients[i]? = some w ∧ Produces start.setup w.call mode (s.own i)} =
      ((Finset.range s.clients.length).filter fun i => count i = 1 : Finset Caller) := by
    ext i
    rw [Finset.mem_coe, Finset.mem_filter, Finset.mem_range, Set.mem_ofPred_eq]
    constructor
    · rintro ⟨w, hw, hp⟩
      refine ⟨(List.getElem?_eq_some_iff.mp hw).1, ?_⟩
      rcases hcount i w hw with ⟨-, hone⟩ | ⟨hnot, -⟩
      · exact hone
      · exact absurd hp hnot
    · rintro ⟨hlt, hone⟩
      have hw := List.getElem?_eq_getElem hlt
      rcases hcount i _ hw with ⟨hp, -⟩ | ⟨-, hzero⟩
      · exact ⟨_, hw, hp⟩
      · rw [hone] at hzero
        cases hzero
  rw [hset, Set.ncard_coe_finset, Finset.card_filter, countP_eq_sum h.present]
  refine Finset.sum_congr rfl fun i hi => ?_
  show count i = _
  have hw := List.getElem?_eq_getElem (Finset.mem_range.mp hi)
  rcases hcount i _ hw with ⟨-, hone⟩ | ⟨-, hzero⟩
  · rw [hone, if_pos rfl]
  · rw [hzero, if_neg Nat.zero_ne_one]

/-- What holds between two events makes counters exact. -/
lemma exact (h : Accounted start s) :
    ∃ t k, s.cache.tally = some t ∧ s.cache.counters = some k ∧ Exact s t k := by
  obtain ⟨t, ht, hshows⟩ := h.shows.tally
  obtain ⟨k, hk, hk'⟩ := h.shows.counters
  have hlog : ∀ P : Contact → Bool,
      (s.log.map Prod.snd).countP P = s.log.countP fun e => P e.2 := fun P => List.countP_map
  have hhits := fun tier => (hk'.hits tier).trans (hlog _)
  have hmisses := fun tier => (hk'.misses tier).trans (hlog _)
  have hserved : k.hits.count nearLabel = s.log.countP fun e => served e.2 :=
    (hhits _).trans (h.look_ups_eq (a := .nearHit) rfl (by simp))
  have hunserved : k.misses.count nearLabel = s.log.countP fun e => unserved e.2 :=
    (hmisses _).trans (h.look_ups_eq (a := .nearMiss) rfl (by simp))
  refine ⟨t, k, ht, hk, {
    hits := hshows.hits.trans h.recent.1.symm
    misses := hshows.misses.trans h.recent.2.symm
    farHits := (hhits _).trans (h.look_ups_eq (a := .farHit) rfl (by simp))
    farMisses := (hmisses _).trans (h.look_ups_eq (a := .farMiss) rfl (by simp))
    nearHits := hserved
    nearMisses := hunserved
    near := by
      rw [hserved, hunserved]
      exact served_add_unserved s.log
    loads := fun mode => by
      rw [h.setup]
      exact ((hk'.loads mode).trans (hlog _)).trans (h.loads_eq mode)
    heals := fun hfar hskips => by
      have hthere : start.setup.far = true := h.setup ▸ hfar
      rw [hk'.heals, hlog]
      exact h.removals_eq hthere hskips }⟩

end Accounted

/-- **Counters are exact.** Whatever calls are made on a cache with counters and a tally, with any
options and one after the other or at the same time, whatever its tiers answer, and whenever the
tally is started again: the tally shows the look-ups in the far tier since then, the counters those
in both tiers from the beginning, and they show how many values were computed in each way and how
many entries were dropped.

**Proof sketch.** A run changes the counters by the contacts that count. The contacts of a call are
a trace of its program at any time, and on every trace the look-ups, the deletions and what is
computed agree with what is counted. -/
theorem counters_exact [FarStore σ] (start : Cache σ) (htally : start.tally = some {})
    (hcounters : start.counters = some {}) (acts : List (Act ρ)) :
    ∃ t k, (after start acts).cache.tally = some t ∧ (after start acts).cache.counters = some k ∧
      Exact (after start acts) t k :=
  (accounted_after htally hcounters acts).exact

end Counters

/-! ## A far tier whose entries cannot be read -/

section Garbled

open Far

/-- A cache whose far tier answers every read with bytes that cannot be decoded. -/
def garbled : Cache (Drill MemoryStore) :=
  { far := some { store := {}, fixed := some [7] }, tally := some {}, counters := some {} }

/-- A look-up; then, once the tally was started again, a value is asked for that is not computed,
one that is computed in a shared run, and a deletion. -/
def garbledCourse : List (Act Unit) :=
  [.call 0 (.get (.scalar .bool) "k" {}) none, .reset,
    .call 0 (.take (.scalar .bool) { key := "j", value := some (.bool true) }) none,
    .call 0 (.once (.scalar .bool) { key := "k", loader := some () }) none,
    .poll 1 2 (some (.ok (.bool true))), .call 1 (.delete "k") none]

/-- Counters are exact there: five look-ups, of which four came after the tally was started again,
one value that was computed, and two entries that were dropped. -/
theorem counters_exact_garbled :
    garbled.tally = some {} ∧ garbled.counters = some {} ∧
      (after garbled garbledCourse).cache.tally = some ⟨4, 0⟩ ∧
      (after garbled garbledCourse).cache.counters =
        some { hits := [(farLabel, 5)], loads := [("once", 1)], heals := 2 } ∧
      ∃ t k, (after garbled garbledCourse).cache.tally = some t ∧
        (after garbled garbledCourse).cache.counters = some k ∧
        Exact (after garbled garbledCourse) t k :=
  ⟨rfl, rfl, by decide +kernel, by decide +kernel, counters_exact garbled rfl rfl garbledCourse⟩

end Garbled

end LayeredCache.Traffic
