import LayeredCache.Proofs.SharedLoad.Scene
import Mathlib.Data.List.Induction

/-!
# The invariant of shared loads

At every time, each caller of a shared load has not begun, waits for another caller's run, or waits
for its own loader; and the key is in a phase that fits: while a loader runs, the key is absent, and
once a caller whose loader was started has returned, the value is stored.

## Main definitions

* `SharedLoad.Standing` — where a caller of the shared load stands.
* `SharedLoad.Known` — what holds of one caller; `SharedLoad.Invariant` — what holds of a course of
  events.
* `SharedLoad.Ready` — caches with which a course of events may begin.

## Main results

* `SharedLoad.invariant_after` — the invariant holds whatever happens.
-/

set_option autoImplicit false

namespace LayeredCache.SharedLoad

open Far Flight

variable {ρ : Type}

/-! ## The invariant -/

/-- Where a caller of the shared load stands: what is left of its program, what its place in the
calls is, and whether it has started its loader. -/
inductive Standing (s : Setup) (ty : Ty) (item : Item ρ) (key : String) (c : Cache MemoryStore)
    (i : Caller) : Option (Prog Reading) → Prop where
  | fresh (hseat : c.flights.seat? i = none) (hstarted : i ∉ c.started) :
      Standing s ty item key c i (some (s.once ty item))
  | waiting (hkeyed : c.flights.Keyed i key) (hruns : ¬ c.flights.Runs i)
      (hstarted : i ∉ c.started) : Standing s ty item key c i (some (s.joinRun ty item))
  | loading (hkeyed : c.flights.Keyed i key) (hruns : c.flights.Runs i)
      (hstarted : i ∈ c.started) : Standing s ty item key c i (some (s.loadRest ty item))
  | ended (hseat : c.flights.seat? i = none) : Standing s ty item key c i none

namespace Standing

variable {s : Setup} {ty : Ty} {item : Item ρ} {key : String} {c : Cache MemoryStore}
  {i w : Caller} {rest : Option (Prog Reading)}

/-- A caller stands where it stood while another one moves. -/
lemma moved {t t' : Scene} (hm : Moved i t t') (hf : t.cache.flights.Orderly) (hw : w ≠ i)
    (h : Standing s ty item key t.cache w rest) : Standing s ty item key t'.cache w rest := by
  cases h with
  | fresh hseat hstarted =>
    exact .fresh (hm.seat hf hw hseat) fun hmem => hstarted ((hm.started_iff hw).mp hmem)
  | waiting hkeyed hruns hstarted =>
    exact .waiting (hm.keyed hw hkeyed) (fun hr => hruns ((hm.passes.runs w hw).mp hr))
      fun hmem => hstarted ((hm.started_iff hw).mp hmem)
  | loading hkeyed hruns hstarted =>
    exact .loading (hm.keyed hw hkeyed) ((hm.passes.runs w hw).mpr hruns)
      ((hm.started_iff hw).mpr hstarted)
  | ended hseat => exact .ended (hm.seat hf hw hseat)

/-- A caller of the shared load sits in calls of its key only. -/
lemma keyed (h : Standing s ty item key c i rest) (hf : c.flights.Orderly) :
    c.flights.Keyed i key := by
  cases h with
  | fresh hseat => exact hf.keyed_of_seat hseat key
  | waiting hkeyed => exact hkeyed
  | loading hkeyed => exact hkeyed
  | ended hseat => exact hf.keyed_of_seat hseat key

end Standing

/-- What holds of one caller in a course of events. -/
structure Known (ty : Ty) (key : String) (start : Cache MemoryStore) (acts : List (Act ρ))
    (w : Caller) : Prop where
  seated : ∀ q k output, (after ty start acts).cache.flights.Sits w q k output →
    w < (roster acts).length
  begun : w ∈ (after ty start acts).cache.started → w < (roster acts).length
  ended : ∀ r, (w, r) ∈ (after ty start acts).tasks.ended →
    w < (roster acts).length ∧ (after ty start acts).live w = false
  gone : w < (roster acts).length → (after ty start acts).live w = false →
    .drop w ∈ acts ∨ ∃ r, (w, r) ∈ (after ty start acts).tasks.ended
  crashed : ∀ item, Asks acts w item → (after ty start acts).Crashed w →
    ∃ now, .poll now w ∈ acts ∧ ¬ start.Affords now 0
  asking : ∀ item t, Asks acts w item → (after ty start acts).tasks.tasks[w]? = some t →
    (∀ answer, t.loaded = some answer → Good start.envelope ty answer) ∧
      Standing start.setup ty item key (after ty start acts).cache w t.rest
  elsewhere : ∀ t, Elsewhere acts w → (after ty start acts).tasks.tasks[w]? = some t →
    (∀ p, t.rest = some p →
      p.Avoids key ∧ p.Poised w (after ty start acts).cache.flights) ∧
      ∀ q k output, (after ty start acts).cache.flights.Sits w q k output → k ≠ key

/-- What holds of a course of events. -/
structure Invariant (ty : Ty) (key : String) (start : Cache MemoryStore) (acts : List (Act ρ)) :
    Prop where
  sound : (after ty start acts).cache.Sound
  setup : (after ty start acts).cache.setup = start.setup
  ttl : (after ty start acts).cache.near.map NearTier.defaultTtl =
    start.near.map NearTier.defaultTtl
  orderly : (after ty start acts).cache.flights.Orderly
  length : (after ty start acts).tasks.tasks.length = (roster acts).length
  known : ∀ w, Known ty key start acts w
  once : ((after ty start acts).cache.started.filter (asks acts)).Nodup
  /-- A caller whose loader runs has found the key absent; once such a caller has returned, the
  value is stored. -/
  phase : ∃ ph, Cache.In key ty (after ty start acts).cache (after ty start acts).deeds ph ∧
    (∀ i item, Asks acts i item → i ∈ (after ty start acts).cache.started →
      (after ty start acts).live i = true → ph = .absent) ∧
    ∀ i item r, Asks acts i item → i ∈ (after ty start acts).cache.started →
      (after ty start acts).Returned i r → ph = .stored
  single : ∀ i j item item' r r', Asks acts i item → Asks acts j item' →
    i ∈ (after ty start acts).cache.started → j ∈ (after ty start acts).cache.started →
    (after ty start acts).Returned i r → (after ty start acts).Returned j r' → i = j

/-! ## Steps -/

section Step

variable {ty : Ty} {key : String} {start : Cache MemoryStore} {acts : List (Act ρ)} {e : Act ρ}
  {i : Caller}

/-- A caller that takes part has come. -/
lemma Asks.come {item : Item ρ} (h : Asks acts i item) : ∃ loaded, .come item loaded ∈ acts := by
  obtain ⟨a, ha, hnew⟩ := List.mem_filterMap.mp (List.mem_of_getElem? h)
  cases a with
  | come item' loaded =>
    obtain rfl := Option.some.inj (Option.some.inj hnew)
    exact ⟨loaded, ha⟩
  | other p loaded => cases Option.some.inj hnew
  | poll now j => cases hnew
  | drop j => cases hnew
  | supply j answer => cases hnew

/-- A caller that has come takes part or does something else. -/
lemma asks_or_elsewhere (hi : i < (roster acts).length) :
    (∃ item, Asks acts i item) ∨ Elsewhere acts i := by
  unfold Asks Elsewhere
  cases hx : (roster acts)[i]? with
  | none => exact absurd hi (Nat.not_lt.mpr (List.getElem?_eq_none_iff.mp hx))
  | some x =>
    cases x with
    | none => exact .inr rfl
    | some item => exact .inl ⟨item, rfl⟩

/-- A caller that takes part does nothing else. -/
lemma Asks.not_elsewhere {item : Item ρ} (h : Asks acts i item) : ¬ Elsewhere acts i := by
  intro h'
  cases h.symm.trans h'

/-- Whether a caller is live depends on what is left of its program. -/
lemma Scene.live_eq (s : Scene) (w : Caller) :
    s.live w = (s.tasks.tasks[w]?.map Task.rest).join.isSome := by
  unfold Scene.live
  cases s.tasks.tasks[w]? with
  | none => rfl
  | some t => rfl

/-- **A caller is known as before** after an event that changes neither the cache nor what is left
of its program. -/
lemma Known.kept {w : Caller} (h : Known ty key start acts w)
    (hroster : (roster (acts ++ [e]))[w]? = (roster acts)[w]?)
    (hcache : (after ty start (acts ++ [e])).cache = (after ty start acts).cache)
    (hended : (after ty start (acts ++ [e])).tasks.ended = (after ty start acts).tasks.ended)
    (hrest : (after ty start (acts ++ [e])).tasks.tasks[w]?.map Task.rest =
      (after ty start acts).tasks.tasks[w]?.map Task.rest)
    (hloaded : ∀ item t t₀, Asks acts w item →
      (after ty start (acts ++ [e])).tasks.tasks[w]? = some t →
      (after ty start acts).tasks.tasks[w]? = some t₀ →
      t.loaded = t₀.loaded ∨ ∃ answer, t.loaded = some answer ∧ Good start.envelope ty answer) :
    Known ty key start (acts ++ [e]) w := by
  have hlt : w < (roster (acts ++ [e])).length ↔ w < (roster acts).length := by
    rw [← Nat.not_le, ← Nat.not_le, ← List.getElem?_eq_none_iff, ← List.getElem?_eq_none_iff,
      hroster]
  have hlive : (after ty start (acts ++ [e])).live w = (after ty start acts).live w := by
    rw [Scene.live_eq, Scene.live_eq, hrest]
  -- its task was there before, with the same left of its program
  have hold : ∀ t, (after ty start (acts ++ [e])).tasks.tasks[w]? = some t →
      ∃ t₀, (after ty start acts).tasks.tasks[w]? = some t₀ ∧ t₀.rest = t.rest := by
    intro t ht
    rw [ht] at hrest
    exact Option.map_eq_some_iff.mp hrest.symm
  constructor
  case seated => rw [hcache, hlt]; exact h.seated
  case begun => rw [hcache, hlt]; exact h.begun
  case ended => rw [hended, hlt, hlive]; exact h.ended
  case gone =>
    rw [hended, hlt, hlive]
    exact fun hw hdead => (h.gone hw hdead).imp (List.mem_append_left _) id
  case crashed =>
    unfold Asks Scene.Crashed
    rw [hroster, hended]
    intro item hw hcrash
    obtain ⟨now, hmem, hafford⟩ := h.crashed item hw hcrash
    exact ⟨now, List.mem_append_left _ hmem, hafford⟩
  case asking =>
    unfold Asks
    rw [hroster, hcache]
    intro item t hw ht
    obtain ⟨t₀, ht₀, hsame⟩ := hold t ht
    obtain ⟨hgood, hstanding⟩ := h.asking item t₀ hw ht₀
    rw [← hsame]
    refine ⟨fun answer hanswer => ?_, hstanding⟩
    rcases hloaded item t t₀ hw ht ht₀ with heq | ⟨answer', hnew, hgood'⟩
    · exact hgood answer (heq ▸ hanswer)
    · obtain rfl := Option.some.inj (hnew.symm.trans hanswer)
      exact hgood'
  case elsewhere =>
    unfold Elsewhere
    rw [hroster, hcache]
    intro t hw ht
    obtain ⟨t₀, ht₀, hsame⟩ := hold t ht
    rw [← hsame]
    exact h.elsewhere t₀ hw ht₀

/-- **A caller is known as before** while another one moves. -/
lemma Known.moved {w : Caller} (h : Known ty key start acts w) (hnew : e.newcomer? = none)
    (hf : (after ty start acts).cache.flights.Orderly)
    (hm : Moved i (after ty start acts) (after ty start (acts ++ [e]))) (hw : w ≠ i) :
    Known ty key start (acts ++ [e]) w := by
  have hroster := roster_snoc_of_none acts hnew
  constructor
  case seated =>
    rw [hroster]
    intro q k output hs
    obtain ⟨output', hs'⟩ := hm.passes.others w hw q k output hs
    exact h.seated q k output' hs'
  case begun =>
    rw [hroster]
    exact fun hmem => h.begun ((hm.started_iff hw).mp hmem)
  case ended =>
    rw [hroster, hm.live hw]
    exact fun r hr => h.ended r ((hm.ended_iff hw).mp hr)
  case gone =>
    rw [hroster, hm.live hw]
    intro hlt hdead
    refine (h.gone hlt hdead).imp (List.mem_append_left _) fun ⟨r, hr⟩ => ⟨r, ?_⟩
    exact hm.ended_of_ended hr
  case crashed =>
    unfold Asks
    rw [hroster]
    intro item hasks hcrash
    obtain ⟨now, hmem, hafford⟩ := h.crashed item hasks ((hm.ended_iff hw).mp hcrash)
    exact ⟨now, List.mem_append_left _ hmem, hafford⟩
  case asking =>
    unfold Asks
    rw [hroster, hm.task hw]
    intro item t hasks ht
    obtain ⟨hgood, hstanding⟩ := h.asking item t hasks ht
    exact ⟨hgood, hstanding.moved hm hf hw⟩
  case elsewhere =>
    unfold Elsewhere
    rw [hroster, hm.task hw]
    intro t helse ht
    obtain ⟨hrest, hseats⟩ := h.elsewhere t helse ht
    refine ⟨fun p hp => ?_, fun q k output hs => ?_⟩
    · obtain ⟨havoids, hpoised⟩ := hrest p hp
      refine ⟨havoids, hpoised.imp (fun hsettled => ?_) id⟩
      exact hsettled.imp (hm.seat hf hw) (hm.passes.runs w hw).mpr
    · obtain ⟨output', hs'⟩ := hm.passes.others w hw q k output hs
      exact hseats q k output' hs'

/-- An event changes neither the cache nor what is left of the programs; something more may be known
of the loaders. -/
lemma Invariant.quiet (h : Invariant ty key start acts) (hnew : e.newcomer? = none)
    (hcache : (after ty start (acts ++ [e])).cache = (after ty start acts).cache)
    (hdeeds : (after ty start (acts ++ [e])).deeds = (after ty start acts).deeds)
    (hended : (after ty start (acts ++ [e])).tasks.ended = (after ty start acts).tasks.ended)
    (hrest : (after ty start (acts ++ [e])).tasks.tasks.map Task.rest =
      (after ty start acts).tasks.tasks.map Task.rest)
    (hloaded : ∀ w item t t₀, Asks acts w item →
      (after ty start (acts ++ [e])).tasks.tasks[w]? = some t →
      (after ty start acts).tasks.tasks[w]? = some t₀ →
      t.loaded = t₀.loaded ∨ ∃ answer, t.loaded = some answer ∧ Good start.envelope ty answer) :
    Invariant ty key start (acts ++ [e]) := by
  have hroster := roster_snoc_of_none acts hnew
  have hasks : asks (acts ++ [e]) = asks acts := by
    funext w
    rw [asks, asks, hroster]
  have htask : ∀ w : Nat, (after ty start (acts ++ [e])).tasks.tasks[w]?.map Task.rest =
      (after ty start acts).tasks.tasks[w]?.map Task.rest := by
    intro w
    rw [← List.getElem?_map, hrest, List.getElem?_map]
  constructor
  case sound => rw [hcache]; exact h.sound
  case setup => rw [hcache]; exact h.setup
  case ttl => rw [hcache]; exact h.ttl
  case orderly => rw [hcache]; exact h.orderly
  case length =>
    rw [hroster, ← h.length]
    simpa using congrArg List.length hrest
  case known =>
    exact fun w => (h.known w).kept (by rw [hroster]) hcache hended (htask w) (hloaded w)
  case once => rw [hasks, hcache]; exact h.once
  case phase =>
    unfold Asks Scene.Returned
    rw [hroster, hcache, hdeeds, hended]
    obtain ⟨ph, hin, habsent, hstored⟩ := h.phase
    refine ⟨ph, hin, fun w item hw hmem hlive => ?_, hstored⟩
    rw [Scene.live_eq, htask, ← Scene.live_eq] at hlive
    exact habsent w item hw hmem hlive
  case single =>
    unfold Asks Scene.Returned
    rw [hroster, hcache, hended]
    exact h.single

/-- Nothing has happened. -/
lemma Invariant.of_same (h : Invariant ty key start acts) (hnew : e.newcomer? = none)
    (hsame : after ty start (acts ++ [e]) = after ty start acts) :
    Invariant ty key start (acts ++ [e]) := by
  refine h.quiet hnew ?_ ?_ ?_ ?_ ?_
  all_goals rw [hsame]
  · intro w item t t₀ _ ht ht₀
    obtain rfl := Option.some.inj (ht.symm.trans ht₀)
    exact .inl rfl

/-- **A caller moves**, and what is said of it still holds. -/
lemma Invariant.moved (h : Invariant ty key start acts) (hnew : e.newcomer? = none)
    (hm : Moved i (after ty start acts) (after ty start (acts ++ [e])))
    (hknown : Known ty key start (acts ++ [e]) i)
    (honce : ((after ty start (acts ++ [e])).cache.started.filter (asks acts)).Nodup)
    (hphase : ∃ ph, Cache.In key ty (after ty start (acts ++ [e])).cache
        (after ty start (acts ++ [e])).deeds ph ∧
      (∀ w item, Asks acts w item → w ∈ (after ty start (acts ++ [e])).cache.started →
        (after ty start (acts ++ [e])).live w = true → ph = .absent) ∧
      ∀ w item r, Asks acts w item → w ∈ (after ty start (acts ++ [e])).cache.started →
        (after ty start (acts ++ [e])).Returned w r → ph = .stored)
    (hsingle : ∀ item r, Asks acts i item →
      i ∈ (after ty start (acts ++ [e])).cache.started →
      (after ty start (acts ++ [e])).Returned i r →
      ∀ w item' r', w ≠ i → Asks acts w item' → w ∈ (after ty start acts).cache.started →
        ¬ (after ty start acts).Returned w r') :
    Invariant ty key start (acts ++ [e]) := by
  have hroster := roster_snoc_of_none acts hnew
  have hasks : asks (acts ++ [e]) = asks acts := by
    funext w
    rw [asks, asks, hroster]
  constructor
  case sound => exact hm.sound
  case setup => exact hm.setup.trans h.setup
  case ttl => exact hm.ttl.trans h.ttl
  case orderly => exact hm.passes.orderly
  case length => rw [hroster, hm.length]; exact h.length
  case known =>
    intro w
    by_cases hw : w = i
    · exact hw ▸ hknown
    · exact (h.known w).moved hnew h.orderly hm hw
  case once => rw [hasks]; exact honce
  case phase => unfold Asks; rw [hroster]; exact hphase
  case single =>
    unfold Asks
    rw [hroster]
    intro w w' item item' r r' hw hw' hmem hmem' hr hr'
    by_cases heq : w = i
    · subst heq
      by_cases heq' : w' = w
      · exact heq'.symm
      · exact absurd ((hm.ended_iff heq').mp hr') (hsingle item r hw hmem hr w' item' r' heq' hw'
          ((hm.started_iff heq').mp hmem'))
    · by_cases heq' : w' = i
      · subst heq'
        exact absurd ((hm.ended_iff heq).mp hr) (hsingle item' r' hw' hmem' hr' w item r heq hw
          ((hm.started_iff heq).mp hmem))
      · exact h.single w w' item item' r r' hw hw' ((hm.started_iff heq).mp hmem)
          ((hm.started_iff heq').mp hmem') ((hm.ended_iff heq).mp hr)
          ((hm.ended_iff heq').mp hr')

end Step

/-! ## Polls of callers of the shared load -/

/-- Who has ended after a poll. -/
lemma mem_endingsOf {w i : Caller} {x : Option Reading} {r : Progress Reading} :
    (w, x) ∈ endingsOf i r ↔
      w = i ∧ ((∃ a, r = .finished a ∧ x = some a) ∨ (r = .crashed ∧ x = none)) := by
  cases r with
  | finished a => simp [endingsOf]
  | blocked rest => simp [endingsOf]
  | crashed => simp [endingsOf]

section Ends

variable {s : Setup} {ty : Ty} {item : Item ρ} {key : String} {visit : Visit} {ph : Phase}
  {c c' : Cache MemoryStore} {past : List Deed} {r : Progress Reading}

/-- The loaders that were started once a caller was polled. -/
lemma started_of_ends (h : s.Ends ty item key visit ph c c' past r) :
    (∃ n, c'.started = c.started ++ List.replicate n visit.caller) ∧
      (c'.started = c.started ∨
        visit.caller ∉ c.started ∧ c'.started = c.started ++ [visit.caller]) := by
  have hidle : Setup.Idle visit.caller c c' →
      (∃ n, c'.started = c.started ++ List.replicate n visit.caller) ∧
      (c'.started = c.started ∨
        visit.caller ∉ c.started ∧ c'.started = c.started ++ [visit.caller]) := by
    intro hidle
    exact ⟨⟨0, by rw [hidle.2]; exact (List.append_nil _).symm⟩, .inl hidle.2⟩
  have hbegan : Setup.Began visit.caller c c' →
      (∃ n, c'.started = c.started ++ List.replicate n visit.caller) ∧
      (c'.started = c.started ∨
        visit.caller ∉ c.started ∧ c'.started = c.started ++ [visit.caller]) := by
    rintro (⟨hnot, hnew⟩ | ⟨-, hsame⟩)
    · exact ⟨⟨1, hnew⟩, .inr ⟨hnot, hnew⟩⟩
    · exact ⟨⟨0, by rw [hsame]; exact (List.append_nil _).symm⟩, .inl hsame⟩
  cases h with
  | waiting _ _ _ _ h => exact hidle h
  | done _ _ _ _ h => exact hidle h
  | loading _ _ _ _ h => exact hbegan h
  | loaded _ _ _ _ _ _ _ h => exact hbegan h
  | failed _ _ _ _ h => exact hbegan h

/-- A caller that has begun its loader is among those that have. -/
lemma mem_of_began {i : Caller} (h : Setup.Began i c c') : i ∈ c'.started := by
  rcases h with ⟨-, hnew⟩ | ⟨hmem, hsame⟩
  · rw [hnew]
    exact List.mem_append_right _ (List.mem_singleton.mpr rfl)
  · rw [hsame]
    exact hmem

/-- A caller that has not begun its loader is not among those that have. -/
lemma not_mem_of_idle {i : Caller} (h : Setup.Idle i c c') : i ∉ c'.started := by
  rw [h.2]
  exact h.1

/-- Where a caller of the shared load stands once it was polled. -/
lemma standing_of_ends (h : s.Ends ty item key visit ph c c' past r)
    (hkeyed : c'.flights.Keyed visit.caller key) :
    Standing s ty item key c' visit.caller (restOf r) := by
  cases h with
  | waiting _ _ _ _ hidle hruns => exact .waiting hkeyed hruns (not_mem_of_idle hidle)
  | done _ _ _ _ _ hseat _ hr =>
    have hnone : restOf r = none := by
      cases r with
      | finished a => rfl
      | blocked rest => exact absurd rfl (hr rest)
      | crashed => rfl
    rw [hnone]
    exact .ended hseat
  | loading _ _ _ _ hbegan hruns => exact .loading hkeyed hruns (mem_of_began hbegan)
  | loaded _ _ _ _ _ _ _ _ hseat => exact .ended hseat
  | failed _ _ _ _ _ hseat => exact .ended hseat

/-- The phase of the key once a caller was polled. -/
lemma phase_of_ends (h : s.Ends ty item key visit ph c c' past r) :
    ∃ ph', Cache.In key ty c' past ph' ∧ (ph = .stored → ph' = .stored) ∧
      (ph = .absent → ph' = .absent ∨ c.flights.Alone visit.caller key) ∧
      (visit.caller ∈ c'.started → ph ≠ .stored ∧
        (∀ rest, r = .blocked rest → ph' = .absent) ∧ ∀ a, r = .finished a → ph' = .stored) := by
  cases h with
  | waiting ph' hstored habsent hin hidle =>
    exact ⟨ph', hin, hstored, fun heq => .inl (habsent heq),
      fun hmem => absurd hmem (not_mem_of_idle hidle)⟩
  | done ph' hstored habsent hin hidle =>
    exact ⟨ph', hin, hstored, habsent, fun hmem => absurd hmem (not_mem_of_idle hidle)⟩
  | loading hph halone _ hin =>
    exact ⟨.absent, hin, fun heq => absurd heq hph, fun _ => .inl rfl,
      fun _ => ⟨hph, fun _ _ => rfl, by simp⟩⟩
  | loaded v data hph halone _ _ hin =>
    exact ⟨.stored, hin, fun _ => rfl, fun _ => .inr halone,
      fun _ => ⟨hph, by simp, fun _ _ => rfl⟩⟩
  | failed ph' hph halone hin =>
    exact ⟨ph', hin, fun heq => absurd heq hph, fun _ => .inr halone,
      fun _ => ⟨hph, by simp, by simp⟩⟩

end Ends

section Polls

variable {ty : Ty} {key : String} {start : Cache MemoryStore} {acts : List (Act ρ)} {i : Caller}
  {item : Item ρ} {p : Prog Reading} {loaded : Option (Except LoadFailure Value)} {now : Instant}

/-- A caller whose loader was started and that is not over runs. -/
lemma Standing.runs {s : Setup} {c : Cache MemoryStore}
    (h : Standing s ty item key c i (some p)) (hstarted : i ∈ c.started) : c.flights.Runs i := by
  cases h with
  | fresh _ hnot => exact absurd hstarted hnot
  | waiting _ _ hnot => exact absurd hstarted hnot
  | loading _ hruns => exact hruns

/-- What is left of the program of a live caller. -/
lemma Scene.live_iff {s : Scene} : s.live i = true ↔
    ∃ p loaded, s.tasks.tasks[i]? = some ⟨some p, loaded⟩ := by
  unfold Scene.live
  constructor
  · intro h
    cases ht : s.tasks.tasks[i]? with
    | none => simp [ht] at h
    | some t =>
      obtain ⟨rest, loaded⟩ := t
      cases rest with
      | none => simp [ht] at h
      | some p => exact ⟨p, loaded, rfl⟩
  · rintro ⟨p, loaded, ht⟩
    simp [ht]

/-- The items of the shared load skip no tier, and so on. -/
lemma Fair.plain {e : Envelope} (h : Fair e ty key acts) (hi : Asks acts i item) :
    item.Plain e ty key := by
  obtain ⟨loaded, hmem⟩ := hi.come
  exact h.items item loaded hmem

/-- **A poll** of a caller of the shared load, wherever it stands. -/
lemma Invariant.turned (h : Invariant ty key start acts) (hty : ty ≠ .scalar .literal)
    (hfar : start.setup.far = true) (hfair : Fair start.envelope ty key acts)
    (hasks : Asks acts i item)
    (ht : (after ty start acts).tasks.tasks[i]? = some ⟨some p, loaded⟩) (now : Instant) :
    ∃ ph ds r c', p.Visits ⟨now, i, loaded⟩ (after ty start acts).cache ds r c' ∧
      start.setup.Turned ty item key ⟨now, i, loaded⟩ ph (after ty start acts).cache c'
        ((after ty start acts).deeds ++ ds) r ∧
      (∀ w item, Asks acts w item → w ∈ (after ty start acts).cache.started →
        (after ty start acts).live w = true → ph = .absent) ∧
      ∀ w item r, Asks acts w item → w ∈ (after ty start acts).cache.started →
        (after ty start acts).Returned w r → ph = .stored := by
  obtain ⟨ph, hin, habsent, hstored⟩ := h.phase
  obtain ⟨hgood, hstanding⟩ := (h.known i).asking item _ hasks ht
  have hplain := hfair.plain hasks
  have hlive : (after ty start acts).live i = true := Scene.live_iff.mpr ⟨p, loaded, ht⟩
  have hloaded : ∀ answer, loaded = some answer →
      ∃ v data, answer = .ok v ∧ start.setup.envelope.Keeps ty v data := hgood
  have hstands : Standing start.setup ty item key (after ty start acts).cache i (some p) :=
    hstanding
  cases hstands with
  | fresh hseat hnot =>
    obtain ⟨ds, r, c', hvisits, hturned⟩ := Setup.once_turned
      ⟨now, i, loaded⟩ hty h.sound h.setup hfar hplain hloaded h.orderly hseat hnot hin
    exact ⟨ph, ds, r, c', hvisits, hturned, habsent, hstored⟩
  | waiting hkeyed hruns hnot =>
    obtain ⟨ds, r, c', hvisits, hturned⟩ := Setup.joinRun_turned
      ⟨now, i, loaded⟩ hty h.sound h.setup hfar hplain hloaded h.orderly hkeyed hruns
      hnot hin
    exact ⟨ph, ds, r, c', hvisits, hturned, habsent, hstored⟩
  | loading hkeyed hruns hmem =>
    obtain ⟨ds, r, c', hvisits, hturned⟩ := Setup.loadRest_turned
      ⟨now, i, loaded⟩ hty h.sound h.setup hfar hplain hloaded h.orderly hkeyed hruns
      hmem hin (habsent i item hasks hmem hlive)
    exact ⟨ph, ds, r, c', hvisits, hturned, habsent, hstored⟩

/-- A caller that is polled moves. -/
lemma Scene.moved_poll {s : Scene} {c' : Cache MemoryStore} {ds : List Deed}
    {r : Progress Reading} (ht : s.tasks.tasks[i]? = some ⟨some p, loaded⟩)
    (hvisits : p.Visits ⟨now, i, loaded⟩ s.cache ds r c') (hsound : c'.Sound)
    (hsetup : c'.setup = s.cache.setup)
    (httl : c'.near.map NearTier.defaultTtl = s.cache.near.map NearTier.defaultTtl)
    (hpasses : Flight.Group.Passes i s.cache.flights c'.flights)
    (hstarted : ∃ n, c'.started = s.cache.started ++ List.replicate n i) :
    Moved i s (s.step ty (.poll now i : Act ρ)) := by
  rw [Scene.step_poll ht hvisits]
  refine ⟨hsound, hsetup, httl, hpasses, ⟨restOf r, rfl⟩, ⟨endingsOf i r, rfl, fun e he => ?_⟩,
    hstarted⟩
  exact (mem_endingsOf.mp (show (e.1, e.2) ∈ endingsOf i r from he)).1

/-- What is left of a caller that was polled. -/
lemma Scene.task_poll {s : Scene} {c' : Cache MemoryStore} {ds : List Deed} {r : Progress Reading}
    (ht : s.tasks.tasks[i]? = some ⟨some p, loaded⟩)
    (hvisits : p.Visits ⟨now, i, loaded⟩ s.cache ds r c') :
    (s.step ty (.poll now i : Act ρ)).tasks.tasks[i]? = some ⟨restOf r, loaded⟩ := by
  rw [Scene.step_poll ht hvisits]
  simp [ht]

/-- How a caller that had not ended before has ended after a poll. -/
lemma Scene.ended_poll {s : Scene} {c' : Cache MemoryStore} {ds : List Deed}
    {r : Progress Reading} (ht : s.tasks.tasks[i]? = some ⟨some p, loaded⟩)
    (hvisits : p.Visits ⟨now, i, loaded⟩ s.cache ds r c') (hnot : ∀ x, (i, x) ∉ s.tasks.ended)
    (x : Option Reading) : (i, x) ∈ (s.step ty (.poll now i : Act ρ)).tasks.ended ↔
      (∃ a, r = .finished a ∧ x = some a) ∨ (r = .crashed ∧ x = none) := by
  rw [Scene.step_poll ht hvisits, List.mem_append, mem_endingsOf]
  constructor
  · rintro (hx | ⟨-, hx⟩)
    · exact absurd hx (hnot x)
    · exact hx
  · exact fun hx => .inr ⟨rfl, hx⟩

/-- A caller that was polled has ended, or has something left of its program. -/
lemma Scene.live_poll {s : Scene} {c' : Cache MemoryStore} {ds : List Deed}
    {r : Progress Reading} (ht : s.tasks.tasks[i]? = some ⟨some p, loaded⟩)
    (hvisits : p.Visits ⟨now, i, loaded⟩ s.cache ds r c') (hnot : ∀ x, (i, x) ∉ s.tasks.ended) :
    (s.step ty (.poll now i : Act ρ)).live i = false ↔
      ∃ x, (i, x) ∈ (s.step ty (.poll now i : Act ρ)).tasks.ended := by
  have hends : ∀ x, (i, x) ∈ (s.step ty (.poll now i : Act ρ)).tasks.ended ↔
      (∃ a, r = .finished a ∧ x = some a) ∨ (r = .crashed ∧ x = none) :=
    Scene.ended_poll ht hvisits hnot
  rw [Scene.live, Scene.task_poll ht hvisits]
  cases r with
  | finished a =>
    exact ⟨fun _ => ⟨some a, (hends _).mpr (.inl ⟨a, rfl, rfl⟩)⟩, fun _ => rfl⟩
  | blocked rest =>
    constructor
    · intro h
      cases h
    · rintro ⟨x, hx⟩
      rcases (hends x).mp hx with ⟨a, ha, -⟩ | ⟨ha, -⟩
      · cases ha
      · cases ha
  | crashed => exact ⟨fun _ => ⟨none, (hends _).mpr (.inr ⟨rfl, rfl⟩)⟩, fun _ => rfl⟩

/-- A caller that is live after a poll has something left of its program. -/
lemma Scene.blocked_of_live {s : Scene} {c' : Cache MemoryStore} {ds : List Deed}
    {r : Progress Reading} (ht : s.tasks.tasks[i]? = some ⟨some p, loaded⟩)
    (hvisits : p.Visits ⟨now, i, loaded⟩ s.cache ds r c')
    (hlive : (s.step ty (.poll now i : Act ρ)).live i = true) : ∃ rest, r = .blocked rest := by
  rw [Scene.live, Scene.task_poll ht hvisits] at hlive
  cases r with
  | finished a => cases hlive
  | blocked rest => exact ⟨rest, rfl⟩
  | crashed => cases hlive

/-- A live caller has not ended. -/
lemma Invariant.not_ended (h : Invariant ty key start acts)
    (hlive : (after ty start acts).live i = true) (x : Option Reading) :
    (i, x) ∉ (after ty start acts).tasks.ended :=
  fun hx => Bool.false_ne_true (((h.known i).ended x hx).2.symm.trans hlive)

/-- A caller that is dropped moves. -/
lemma Scene.moved_drop (ty : Ty) {s : Scene} (hsound : s.cache.Sound) (hf : s.cache.flights.Orderly)
    (i : Caller) : Moved i s (s.step ty (.drop i : Act ρ)) := by
  rw [Scene.step_drop]
  exact ⟨hsound, rfl, rfl, .leave hf, ⟨none, rfl⟩, ⟨[], (List.append_nil _).symm, by simp⟩,
    ⟨0, (List.append_nil _).symm⟩⟩

/-- **A caller that was polled** is known again, from what its poll came to. -/
lemma Invariant.known_poll {ds : List Deed} {r : Progress Reading} {c' : Cache MemoryStore}
    (h : Invariant ty key start acts)
    (ht : (after ty start acts).tasks.tasks[i]? = some ⟨some p, loaded⟩)
    (hvisits : p.Visits ⟨now, i, loaded⟩ (after ty start acts).cache ds r c')
    (hasking : ∀ item, Asks acts i item →
      (r = .crashed → ¬ start.Affords now 0) ∧
        Standing start.setup ty item key c' i (restOf r))
    (helsewhere : Elsewhere acts i →
      (∀ rest, r = .blocked rest → rest.Avoids key ∧ rest.Poised i c'.flights) ∧
        ∀ q k output, c'.flights.Sits i q k output → k ≠ key) :
    Known ty key start (acts ++ [.poll now i]) i := by
  have hroster := roster_snoc_of_none acts (e := .poll now i) rfl
  have hstep := (after_snoc ty start acts (.poll now i)).trans (Scene.step_poll ht hvisits)
  have hnot := h.not_ended (Scene.live_iff.mpr ⟨p, loaded, ht⟩)
  have hi : i < (roster (acts ++ [.poll now i])).length := by
    rw [hroster, ← h.length]
    exact (List.getElem?_eq_some_iff.mp ht).1
  have htask : (after ty start (acts ++ [.poll now i])).tasks.tasks[i]? =
      some ⟨restOf r, loaded⟩ := by
    rw [after_snoc]
    exact Scene.task_poll ht hvisits
  have hends : ∀ x, (i, x) ∈ (after ty start (acts ++ [.poll now i])).tasks.ended ↔
      (∃ a, r = .finished a ∧ x = some a) ∨ (r = .crashed ∧ x = none) := by
    rw [after_snoc]
    exact Scene.ended_poll ht hvisits hnot
  have hdead : (after ty start (acts ++ [.poll now i])).live i = false ↔
      ∃ x, (i, x) ∈ (after ty start (acts ++ [.poll now i])).tasks.ended := by
    rw [after_snoc]
    exact Scene.live_poll ht hvisits hnot
  constructor
  case seated => exact fun q k output _ => hi
  case begun => exact fun _ => hi
  case ended => exact fun x hx => ⟨hi, hdead.mpr ⟨x, hx⟩⟩
  case gone => exact fun _ hgone => .inr (hdead.mp hgone)
  case crashed =>
    unfold Asks
    rw [hroster]
    intro item hasks hcrash
    have hr : r = .crashed := by
      rcases (hends none).mp hcrash with ⟨a, -, hx⟩ | ⟨hr, -⟩
      · cases hx
      · exact hr
    exact ⟨now, List.mem_append_right _ (List.mem_singleton.mpr rfl), (hasking item hasks).1 hr⟩
  case asking =>
    unfold Asks
    rw [hroster, hstep]
    intro item t hasks ht'
    obtain rfl := Option.some.inj ((hstep ▸ htask).symm.trans ht')
    exact ⟨((h.known i).asking item _ hasks ht).1, (hasking item hasks).2⟩
  case elsewhere =>
    unfold Elsewhere
    rw [hroster, hstep]
    intro t helse ht'
    obtain rfl := Option.some.inj ((hstep ▸ htask).symm.trans ht')
    obtain ⟨hstays, hseats⟩ := helsewhere helse
    refine ⟨fun q hq => ?_, hseats⟩
    cases r with
    | finished a => cases hq
    | blocked rest =>
      obtain rfl := Option.some.inj hq
      exact hstays rest rfl
    | crashed => cases hq

/-- The invariant survives polls of live callers of the shared load. -/
lemma Invariant.poll_asking (h : Invariant ty key start acts) (hty : ty ≠ .scalar .literal)
    (hfar : start.setup.far = true) (hfair : Fair start.envelope ty key acts)
    (hasks : Asks acts i item)
    (ht : (after ty start acts).tasks.tasks[i]? = some ⟨some p, loaded⟩) (now : Instant) :
    Invariant ty key start (acts ++ [.poll now i]) := by
  obtain ⟨ph, ds, r, c', hvisits, hturned, habsent, hstored⟩ :=
    h.turned hty hfar hfair hasks ht now
  have hstep := (after_snoc ty start acts (.poll now i)).trans (Scene.step_poll ht hvisits)
  obtain ⟨hreplicate, hstarted⟩ := started_of_ends hturned.ends
  obtain ⟨ph', hin, hph, hkeep, hbegun⟩ := phase_of_ends hturned.ends
  have hm : Moved i (after ty start acts) (after ty start (acts ++ [.poll now i])) := by
    rw [after_snoc]
    exact Scene.moved_poll ht hvisits hturned.sound hturned.setup hturned.ttl hturned.passes
      hreplicate
  have hknown : Known ty key start (acts ++ [.poll now i]) i := by
    refine h.known_poll ht hvisits (fun item' hasks' => ?_)
      fun helse => absurd helse hasks.not_elsewhere
    obtain rfl : item = item' := Option.some.inj (Option.some.inj (hasks.symm.trans hasks'))
    refine ⟨fun hr hafford => ?_, standing_of_ends hturned.ends hturned.keyed⟩
    have hlife : item.options.lifetime = 0 := by
      have httl := (hfair.plain hasks).ttl
      rw [CallOptions.lifetime, if_pos (.inl httl), httl]
    refine hturned.crashed hr ?_
    rw [hlife]
    exact (Cache.affords_congr h.ttl).mpr hafford
  have honce : (c'.started.filter (asks acts)).Nodup := by
    rcases hstarted with hsame | ⟨hnot, hnew⟩
    · rw [hsame]
      exact h.once
    · rw [hnew, List.filter_append, List.nodup_append]
      refine ⟨h.once, (List.nodup_singleton i).filter _, fun w hw w' hw' => ?_⟩
      rintro rfl
      have hw' := List.mem_singleton.mp (List.mem_filter.mp hw').1
      exact hnot (hw' ▸ (List.mem_filter.mp hw).1)
  -- no other caller's loader runs when this one runs
  have hothers : ∀ w item', Asks acts w item' → w ≠ i → w ∈ (after ty start acts).cache.started →
      (after ty start acts).live w = true → ph' = .absent := by
    intro w item' hw hne hmem hlive
    obtain ⟨q, loaded', htw⟩ := Scene.live_iff.mp hlive
    have hstanding := ((h.known w).asking item' _ hw htw).2
    rcases hkeep (habsent w item' hw hmem hlive) with heq | halone
    · exact heq
    · have hruns := Standing.runs hstanding hmem
      obtain ⟨place, k, hs⟩ := Flight.Group.Orderly.sits_of_runs hruns
      obtain rfl := hstanding.keyed h.orderly place k none hs
      exact absurd hruns (halone w hne place hs)
  refine h.moved rfl hm hknown (hstep ▸ honce) ⟨ph', hstep ▸ hin, ?_, ?_⟩ ?_
  · intro w item' hw hmem hlivew
    by_cases heq : w = i
    · subst heq
      rw [hstep] at hmem
      rw [after_snoc] at hlivew
      obtain ⟨rest, hr⟩ := Scene.blocked_of_live ht hvisits hlivew
      exact (hbegun hmem).2.1 rest hr
    · rw [hm.live heq] at hlivew
      exact hothers w item' hw heq ((hm.started_iff heq).mp hmem) hlivew
  · intro w item' x hw hmem hx
    by_cases heq : w = i
    · subst heq
      rw [hstep] at hmem
      rw [Scene.Returned, after_snoc, Scene.ended_poll ht hvisits
        (h.not_ended (Scene.live_iff.mpr ⟨p, loaded, ht⟩))] at hx
      rcases hx with ⟨a, hr, -⟩ | ⟨-, hx⟩
      · exact (hbegun hmem).2.2 a hr
      · cases hx
    · exact hph (hstored w item' x hw ((hm.started_iff heq).mp hmem) ((hm.ended_iff heq).mp hx))
  · intro item' x _ hmem _ w item'' x' hne hw hmemw hx'
    rw [hstep] at hmem
    exact (hbegun hmem).1 (hstored w item'' x' hw hmemw hx')

/-! ## Other events -/

/-- The invariant survives polls of callers that do something else. -/
lemma Invariant.poll_elsewhere (h : Invariant ty key start acts) (helse : Elsewhere acts i)
    (ht : (after ty start acts).tasks.tasks[i]? = some ⟨some p, loaded⟩) (now : Instant) :
    Invariant ty key start (acts ++ [.poll now i]) := by
  obtain ⟨hrest, hown⟩ := (h.known i).elsewhere _ helse ht
  obtain ⟨havoids, hpoised⟩ := hrest p rfl
  obtain ⟨ds, r, c', hvisits, hspared, hleaves, hstays⟩ := havoids.visits
    ⟨now, i, loaded⟩ h.sound h.orderly hown hpoised
  have hstep := (after_snoc ty start acts (.poll now i)).trans (Scene.step_poll ht hvisits)
  have hnot : ∀ item, ¬ Asks acts i item := fun item hasks => hasks.not_elsewhere helse
  have hm : Moved i (after ty start acts) (after ty start (acts ++ [.poll now i])) := by
    rw [after_snoc]
    exact Scene.moved_poll ht hvisits hspared.sound hspared.setup hspared.ttl
      hspared.flights.toPasses hspared.started
  have hknown : Known ty key start (acts ++ [.poll now i]) i :=
    h.known_poll ht hvisits (fun item hasks => absurd hasks (hnot item))
      fun _ => ⟨hstays, hspared.flights.own hown⟩
  obtain ⟨ph, hin, habsent, hstored⟩ := h.phase
  refine h.moved rfl hm hknown ?_ ⟨ph, ?_, ?_, ?_⟩ ?_
  · obtain ⟨n, hn⟩ := hm.started
    have hfalse : asks acts i = false := by
      rw [Bool.eq_false_iff]
      intro htrue
      obtain ⟨item, hasks⟩ := (asks_iff acts i).mp htrue
      exact hnot item hasks
    have hnone : (List.replicate n i).filter (asks acts) = [] := by
      rw [List.filter_eq_nil_iff]
      intro w hw
      rw [List.eq_of_mem_replicate hw, hfalse]
      exact Bool.false_ne_true
    rw [hn, List.filter_append, hnone, List.append_nil]
    exact h.once
  · rw [hstep]
    exact hin.spared hspared hleaves
  · intro w item hw hmem hlivew
    have hne : w ≠ i := fun heq => hnot item (heq ▸ hw)
    rw [hm.live hne] at hlivew
    exact habsent w item hw ((hm.started_iff hne).mp hmem) hlivew
  · intro w item x hw hmem hx
    have hne : w ≠ i := fun heq => hnot item (heq ▸ hw)
    exact hstored w item x hw ((hm.started_iff hne).mp hmem) ((hm.ended_iff hne).mp hx)
  · exact fun item x hasks => absurd hasks (hnot item)

/-- A caller that was dropped is not live. -/
lemma Scene.live_drop (ty : Ty) (s : Scene) (i : Caller) :
    (s.step ty (.drop i : Act ρ)).live i = false := by
  rw [Scene.step_drop]
  simp only [Scene.live, List.getElem?_modify_eq]
  cases s.tasks.tasks[i]? with
  | none => rfl
  | some t => rfl

/-- **A caller that was dropped** is known again: it is in no call and has nothing left to do. -/
lemma Invariant.known_drop (h : Invariant ty key start acts) (hi : i < (roster acts).length) :
    Known ty key start (acts ++ [.drop i]) i := by
  have hroster := roster_snoc_of_none acts (e := .drop i) rfl
  have hlt : i < (roster (acts ++ [.drop i])).length := hroster ▸ hi
  have hdead : (after ty start (acts ++ [.drop i])).live i = false := by
    rw [after_snoc]
    exact Scene.live_drop ty _ i
  have hflights : (after ty start (acts ++ [.drop i])).cache.flights =
      (after ty start acts).cache.flights.leave i := by
    rw [after_snoc, Scene.step_drop]
    rfl
  have hended : (after ty start (acts ++ [.drop i])).tasks.ended =
      (after ty start acts).tasks.ended := by
    rw [after_snoc, Scene.step_drop]
  have hrest : ∀ t, (after ty start (acts ++ [.drop i])).tasks.tasks[i]? = some t →
      t.rest = none ∧ ∃ t₀, (after ty start acts).tasks.tasks[i]? = some t₀ ∧
        t.loaded = t₀.loaded := by
    intro t ht
    rw [after_snoc, Scene.step_drop] at ht
    simp only [List.getElem?_modify_eq] at ht
    obtain ⟨t₀, ht₀, rfl⟩ := Option.map_eq_some_iff.mp ht
    exact ⟨rfl, t₀, ht₀, rfl⟩
  constructor
  case seated => exact fun q k output _ => hlt
  case begun => exact fun _ => hlt
  case ended => exact fun _ _ => ⟨hlt, hdead⟩
  case gone => exact fun _ _ => .inl (List.mem_append_right _ (List.mem_singleton.mpr rfl))
  case crashed =>
    unfold Asks Scene.Crashed
    rw [hroster, hended]
    intro item hasks hcrash
    obtain ⟨now, hmem, hafford⟩ := (h.known i).crashed item hasks hcrash
    exact ⟨now, List.mem_append_left _ hmem, hafford⟩
  case asking =>
    unfold Asks
    rw [hroster]
    intro item t hasks ht
    obtain ⟨hnone, t₀, ht₀, hsame⟩ := hrest t ht
    rw [hnone, hsame]
    refine ⟨((h.known i).asking item t₀ hasks ht₀).1, .ended ?_⟩
    rw [hflights]
    exact h.orderly.seat_leave i
  case elsewhere =>
    intro t _ ht
    obtain ⟨hnone, -⟩ := hrest t ht
    rw [hnone, hflights]
    refine ⟨fun p hp => ?_, fun q k output hs => ?_⟩
    · cases hp
    · exact absurd rfl (h.orderly.sits_leave.mp hs).1

/-- The invariant survives that a caller is dropped. -/
lemma Invariant.drop (h : Invariant ty key start acts) (i : Caller) :
    Invariant ty key start (acts ++ [.drop i]) := by
  have hstep := after_snoc ty start acts (.drop i)
  by_cases hi : i < (roster acts).length
  · have hm : Moved i (after ty start acts) (after ty start (acts ++ [.drop i])) := by
      rw [after_snoc]
      exact Scene.moved_drop ty h.sound h.orderly i
    have hdead : (after ty start (acts ++ [.drop i])).live i = false := by
      rw [hstep]
      exact Scene.live_drop ty _ i
    -- the tiers, the loaders and the callers that have ended are as before
    have hcache : (after ty start (acts ++ [.drop i])).cache =
        { (after ty start acts).cache with
          flights := (after ty start acts).cache.flights.leave i } := by
      rw [hstep, Scene.step_drop]
      rfl
    have hended : (after ty start (acts ++ [.drop i])).tasks.ended =
        (after ty start acts).tasks.ended := by
      rw [hstep, Scene.step_drop]
    obtain ⟨ph, hin, habsent, hstored⟩ := h.phase
    refine h.moved rfl hm (h.known_drop hi) ?_ ⟨ph, ?_, ?_, ?_⟩ ?_
    · rw [hcache]
      exact h.once
    · rw [hcache, hstep]
      exact hin.of_same rfl rfl
    · intro w item hw hmem hlive
      rw [hcache] at hmem
      have hne : w ≠ i := by
        rintro rfl
        exact Bool.false_ne_true (hdead.symm.trans hlive)
      rw [hm.live hne] at hlive
      exact habsent w item hw hmem hlive
    · intro w item x hw hmem hx
      rw [hcache] at hmem
      rw [Scene.Returned, hended] at hx
      exact hstored w item x hw hmem hx
    · intro item x hasks hmem hx w item' x' hne hw hmemw hx'
      rw [hcache] at hmem
      rw [Scene.Returned, hended] at hx
      exact hne (h.single w i item' item x' x hw hasks hmemw hmem hx' hx)
  · -- there is no such caller
    refine h.of_same rfl ?_
    have hseat : (after ty start acts).cache.flights.seat? i = none := by
      rw [h.orderly.seat_eq_none_iff]
      exact fun q k output hs => hi ((h.known i).seated q k output hs)
    have hmodify : (after ty start acts).tasks.tasks.modify i
        (fun t => { t with rest := none }) = (after ty start acts).tasks.tasks := by
      refine List.modify_eq_self ?_
      rw [h.length]
      exact Nat.le_of_not_lt hi
    have hleave := Flight.Group.Orderly.leave_of_outside hseat
    rw [hstep, Scene.step_drop, hmodify, hleave]
    rfl

/-- The invariant survives that a loader gives something. -/
lemma Invariant.supply (h : Invariant ty key start acts) {answer : Except LoadFailure Value}
    (hgood : ∀ item, Asks acts i item → Good start.envelope ty answer) :
    Invariant ty key start (acts ++ [.supply i answer]) := by
  have hstep := after_snoc ty start acts (.supply i answer)
  have htasks : (after ty start (acts ++ [.supply i answer])).tasks.tasks =
      (after ty start acts).tasks.tasks.modify i fun t => { t with loaded := some answer } := by
    rw [hstep]
    rfl
  refine h.quiet rfl ?_ ?_ ?_ ?_ fun w item t t₀ hw ht ht₀ => ?_
  · rw [hstep]
    rfl
  · rw [hstep]
    rfl
  · rw [hstep]
    rfl
  · rw [htasks]
    refine List.ext_getElem? fun w => ?_
    rw [List.getElem?_map, List.getElem?_map, List.getElem?_modify, Option.map_eq_map,
      Option.map_map]
    refine congrArg (Option.map · _) (funext fun t => ?_)
    by_cases hw : i = w
    · simp [hw]
    · simp [hw]
  · rw [htasks, List.getElem?_modify, ht₀, Option.map_eq_map, Option.map_some] at ht
    obtain rfl := Option.some.inj ht
    by_cases heq : i = w
    · subst heq
      rw [if_pos rfl]
      exact .inr ⟨answer, rfl, hgood item hw⟩
    · rw [if_neg heq]
      exact .inl rfl

/-- **A caller that has just come** is known: it has not begun. -/
lemma Invariant.known_newcomer (h : Invariant ty key start acts) {e : Act ρ}
    {x : Option (Item ρ)} {w : Caller} (hw : ¬ w < (roster acts).length)
    (hnew : e.newcomer? = some x)
    (hstep : after ty start (acts ++ [e]) =
      { after ty start acts with tasks := (after ty start acts).tasks.add p loaded })
    (hasking : ∀ item, x = some item → p = start.setup.once ty item ∧
      ∀ answer, loaded = some answer → Good start.envelope ty answer)
    (helsewhere : x = none → p.Avoids key) : Known ty key start (acts ++ [e]) w := by
  have hold := h.known w
  have hle := Nat.le_of_not_lt hw
  have hroster : (roster (acts ++ [e]))[w]? = [x][w - (roster acts).length]? := by
    rw [roster_snoc, hnew]
    exact List.getElem?_append_right hle
  have htask : (after ty start (acts ++ [e])).tasks.tasks[w]? =
      [(⟨some p, loaded⟩ : Task Reading)][w - (roster acts).length]? := by
    rw [hstep, ← h.length]
    exact List.getElem?_append_right (h.length ▸ hle)
  have hcache : (after ty start (acts ++ [e])).cache = (after ty start acts).cache := by
    rw [hstep]
    rfl
  have hended : (after ty start (acts ++ [e])).tasks.ended =
      (after ty start acts).tasks.ended := by
    rw [hstep]
    rfl
  have hseat : (after ty start acts).cache.flights.seat? w = none := by
    rw [h.orderly.seat_eq_none_iff]
    exact fun q k output hs => hw (hold.seated q k output hs)
  have hpresent : ∀ {y : Option (Item ρ)} {t : Task Reading},
      (roster (acts ++ [e]))[w]? = some y →
      (after ty start (acts ++ [e])).tasks.tasks[w]? = some t → y = x ∧ t = ⟨some p, loaded⟩ := by
    intro y t hy ht
    rw [hroster] at hy
    rw [htask] at ht
    exact ⟨List.mem_singleton.mp (List.mem_of_getElem? hy),
      List.mem_singleton.mp (List.mem_of_getElem? ht)⟩
  constructor
  case seated =>
    rw [hcache]
    exact fun q k output hs => absurd (hold.seated q k output hs) hw
  case begun =>
    rw [hcache]
    exact fun hmem => absurd (hold.begun hmem) hw
  case ended =>
    rw [hended]
    exact fun r hr => absurd (hold.ended r hr).1 hw
  case gone =>
    intro hlt hdead
    rw [roster_snoc, hnew, List.length_append] at hlt
    have hfirst : w - (roster acts).length = 0 := Nat.sub_eq_zero_of_le (Nat.le_of_lt_succ hlt)
    rw [hfirst] at htask
    rw [Scene.live, htask] at hdead
    cases hdead
  case crashed =>
    unfold Scene.Crashed
    rw [hended]
    exact fun item _ hcrash => absurd (hold.ended none hcrash).1 hw
  case asking =>
    rw [hcache]
    intro item t hasks ht
    obtain ⟨hx, rfl⟩ := hpresent hasks ht
    obtain ⟨rfl, hgood⟩ := hasking item hx.symm
    exact ⟨hgood, .fresh hseat fun hmem => hw (hold.begun hmem)⟩
  case elsewhere =>
    rw [hcache]
    intro t helse ht
    obtain ⟨hx, rfl⟩ := hpresent helse ht
    refine ⟨fun q hq => ?_, fun q k output hs => ?_⟩
    · obtain rfl := Option.some.inj hq
      exact ⟨helsewhere hx.symm, .inl (.inl hseat)⟩
    · exact absurd (hold.seated q k output hs) hw

/-- The invariant survives that a caller comes. -/
lemma Invariant.come (h : Invariant ty key start acts) {e : Act ρ} {x : Option (Item ρ)}
    (hnew : e.newcomer? = some x)
    (hstep : after ty start (acts ++ [e]) =
      { after ty start acts with tasks := (after ty start acts).tasks.add p loaded })
    (hasking : ∀ item, x = some item → p = start.setup.once ty item ∧
      ∀ answer, loaded = some answer → Good start.envelope ty answer)
    (helsewhere : x = none → p.Avoids key) : Invariant ty key start (acts ++ [e]) := by
  have hroster : roster (acts ++ [e]) = roster acts ++ [x] := by
    rw [roster_snoc, hnew]
    rfl
  have hold : ∀ w, w < (roster acts).length →
      (roster (acts ++ [e]))[w]? = (roster acts)[w]? := by
    intro w hw
    rw [hroster, List.getElem?_append_left hw]
  have hcache : (after ty start (acts ++ [e])).cache = (after ty start acts).cache := by
    rw [hstep]
    rfl
  have hended : (after ty start (acts ++ [e])).tasks.ended =
      (after ty start acts).tasks.ended := by
    rw [hstep]
    rfl
  have hdeeds : (after ty start (acts ++ [e])).deeds = (after ty start acts).deeds := by
    rw [hstep]
  have htasks : (after ty start (acts ++ [e])).tasks.tasks =
      (after ty start acts).tasks.tasks ++ [⟨some p, loaded⟩] := by
    rw [hstep]
    rfl
  have htask : ∀ w, w < (roster acts).length →
      (after ty start (acts ++ [e])).tasks.tasks[w]? =
        (after ty start acts).tasks.tasks[w]? := by
    intro w hw
    rw [htasks, List.getElem?_append_left (h.length ▸ hw)]
  have holdasks : ∀ w item, w ∈ (after ty start acts).cache.started →
      Asks (acts ++ [e]) w item → Asks acts w item := by
    intro w item hmem hw
    rwa [Asks, hold w ((h.known w).begun hmem)] at hw
  constructor
  case sound => rw [hcache]; exact h.sound
  case setup => rw [hcache]; exact h.setup
  case ttl => rw [hcache]; exact h.ttl
  case orderly => rw [hcache]; exact h.orderly
  case length => rw [htasks, hroster, List.length_append, List.length_append, h.length]; rfl
  case known =>
    intro w
    by_cases hw : w < (roster acts).length
    · refine (h.known w).kept (hold w hw) hcache hended (by rw [htask w hw]) ?_
      intro item t t₀ _ ht ht₀
      rw [htask w hw] at ht
      obtain rfl := Option.some.inj (ht.symm.trans ht₀)
      exact .inl rfl
    · exact h.known_newcomer hw hnew hstep hasking helsewhere
  case once =>
    rw [hcache]
    have hsame : (after ty start acts).cache.started.filter (asks (acts ++ [e])) =
        (after ty start acts).cache.started.filter (asks acts) := by
      refine List.filter_congr fun w hmem => ?_
      rw [asks, asks, hold w ((h.known w).begun hmem)]
    rw [hsame]
    exact h.once
  case phase =>
    unfold Scene.Returned
    rw [hcache, hdeeds, hended]
    obtain ⟨ph, hin, habsent, hstored⟩ := h.phase
    refine ⟨ph, hin, fun w item hw hmem hlive => ?_, fun w item r hw hmem hr => ?_⟩
    · rw [Scene.live, htask w ((h.known w).begun hmem)] at hlive
      exact habsent w item (holdasks w item hmem hw) hmem hlive
    · exact hstored w item r (holdasks w item hmem hw) hmem hr
  case single =>
    unfold Scene.Returned
    rw [hcache, hended]
    intro w w' item item' r r' hw hw' hmem hmem' hr hr'
    exact h.single w w' item item' r r' (holdasks w item hmem hw) (holdasks w' item' hmem' hw')
      hmem hmem' hr hr'

/-! ## Whole courses of events -/

/-- The shared load has not begun: the near tier is one that the operations lead to, and there are
neither calls nor loaders. -/
structure Ready (start : Cache MemoryStore) : Prop where
  near : ∀ t, start.near = some t → t.Reached
  far : start.setup.far = true
  flights : start.flights = {}
  started : start.started = []

/-- The invariant holds at first. -/
lemma invariant_nil (hready : Ready start) : Invariant ty key start ([] : List (Act ρ)) := by
  have hcache : (after ty start ([] : List (Act ρ))).cache = start := rfl
  have hnone : ∀ i q k output, ¬ start.flights.Sits i q k output := by
    rw [hready.flights]
    exact fun i q k output => Flight.Group.not_sits_empty
  have hstarted : ∀ i, i ∉ start.started := by
    rw [hready.started]
    exact fun i => List.not_mem_nil
  constructor
  case sound => exact fun t ht => (hready.near t ht).sound
  case setup => rfl
  case ttl => rfl
  case orderly =>
    rw [hcache, hready.flights]
    exact Flight.Group.orderly_empty
  case length => rfl
  case known =>
    exact fun i =>
      { seated := fun q k output hs => absurd hs (hnone i q k output)
        begun := fun hmem => absurd hmem (hstarted i)
        ended := fun r hr => absurd hr List.not_mem_nil
        gone := fun hi => absurd hi (Nat.not_lt_zero i)
        crashed := fun item hi => absurd hi (by simp [Asks, roster])
        asking := fun item t hi => absurd hi (by simp [Asks, roster])
        elsewhere := fun t hi => absurd hi (by simp [Elsewhere, roster]) }
  case once =>
    rw [hcache, hready.started]
    exact List.nodup_nil
  case phase =>
    refine ⟨.untouched, fun d hd => absurd hd List.not_mem_nil, fun i item _ hmem => ?_,
      fun i item r _ hmem => ?_⟩
    · exact absurd hmem (hstarted i)
    · exact absurd hmem (hstarted i)
  case single => exact fun i j _ _ _ _ _ _ hmem => absurd hmem (hstarted i)

/-- **The invariant holds whatever happens.**

**Proof sketch.** Induction on the course of events, with one lemma for each kind of event. -/
theorem invariant_after (hty : ty ≠ .scalar .literal) (hready : Ready start)
    (hfair : Fair start.envelope ty key acts) : Invariant ty key start acts := by
  induction acts using List.reverseRecOn with
  | nil => exact invariant_nil hready
  | append_singleton acts e ih =>
    have h := ih hfair.of_snoc
    have hlast : e ∈ acts ++ [e] := List.mem_append_right _ (List.mem_singleton.mpr rfl)
    cases e with
    | come item loaded =>
      refine h.come rfl ((after_snoc ty start acts _).trans rfl) (fun item' hitem => ?_)
        fun hx => by cases hx
      obtain rfl := Option.some.inj hitem
      refine ⟨by rw [h.setup], fun answer hanswer => ?_⟩
      exact hfair.known item answer (hanswer ▸ hlast)
    | other p loaded =>
      refine h.come rfl (after_snoc ty start acts _) (fun item hitem => by cases hitem) fun _ => ?_
      exact hfair.elsewhere p loaded hlast
    | poll now i =>
      cases hlive : (after ty start acts).live i with
      | false =>
        exact h.of_same rfl ((after_snoc ty start acts _).trans (Scene.step_poll_over hlive))
      | true =>
        obtain ⟨p, loaded, ht⟩ := Scene.live_iff.mp hlive
        have hi : i < (roster acts).length := by
          rw [← h.length]
          exact (List.getElem?_eq_some_iff.mp ht).1
        rcases asks_or_elsewhere hi with ⟨item, hasks⟩ | helse
        · exact h.poll_asking hty hready.far hfair.of_snoc hasks ht now
        · exact h.poll_elsewhere helse ht now
    | drop i => exact h.drop i
    | supply i answer =>
      refine h.supply fun item hasks => ?_
      refine hfair.supplied i item answer hlast ?_
      rw [Asks, roster_snoc_of_none _ rfl]
      exact hasks

end Polls

end LayeredCache.SharedLoad
