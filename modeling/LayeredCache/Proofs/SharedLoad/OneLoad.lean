import LayeredCache.Proofs.Flight.SingleFlight
import LayeredCache.Proofs.SharedLoad.Invariant

/-!
# Shared loads run one loader

However the callers of a shared load come, are polled and are dropped, and whatever the tiers hold
under the key at first, one loader is started, and one more for each caller that is lost while its
own loader runs. An entry that cannot be read is deleted once, what was stored is not removed any
more, and all who wait for a run that has used the loader get the value that was loaded.

A caller is lost when it is dropped, or when it crashes because the clock cannot represent the
default deadline of the near tier.

## Main definitions

* `SharedLoad.loads` — the callers of the shared load whose loaders were started.
* `SharedLoad.OneLoad` — what one load means for a course of events.

## Main results

* `SharedLoad.one_load` — every fair course of events has one load.
-/

set_option autoImplicit false

namespace LayeredCache.SharedLoad

open Far Flight

variable {ρ : Type}

/-! ## The statement -/

/-- The callers of the shared load whose loaders were started, in that order. -/
def loads (acts : List (Act ρ)) (s : Scene) : List Caller := s.cache.started.filter (asks acts)

/-- A caller has neither something left of its program nor a result: it was dropped or it has
crashed. -/
def Scene.lost (s : Scene) (i : Caller) : Bool :=
  !s.live i && !s.tasks.ended.any fun e => e.1 == i && e.2.isSome

/-- What the loader of a caller gives, once that is known. -/
def Scene.loadedOf (s : Scene) (i : Caller) : Option (Except LoadFailure Value) :=
  s.tasks.tasks[i]?.bind Task.loaded

/-- A caller of the shared load waits for another caller's run. -/
def Scene.Waits (s : Scene) (i : Caller) : Prop := s.cache.flights.turn i = .wait

/-- What one load means for a course of events. -/
structure OneLoad (ty : Ty) (key : String) (start : Cache MemoryStore) (acts : List (Act ρ)) :
    Prop where
  /-- No caller starts its loader twice, and all loaders that were started but one are those of
  callers that were lost. -/
  loads : (loads acts (after ty start acts)).Nodup ∧
    (loads acts (after ty start acts)).length ≤
      1 + (loads acts (after ty start acts)).countP (after ty start acts).lost
  /-- A caller that was lost was dropped, or was polled when the clock could not represent the
  default deadline of the near tier. -/
  lost : ∀ i item, Asks acts i item → (after ty start acts).lost i = true →
    .drop i ∈ acts ∨
      ((after ty start acts).Crashed i ∧ ∃ now, .poll now i ∈ acts ∧ ¬ start.Affords now 0)
  /-- The key is deleted from the far tier once at most. -/
  deletions : Deed.deletions key (after ty start acts).deeds ≤ 1
  /-- What was written under the key is not removed. -/
  lasting : Deed.Lasting key (after ty start acts).deeds
  /-- A caller that returns and whose loader was started gets what its loader gave, and so does
  everybody who waited for its run and is polled. -/
  given : ∀ pre now j post item r, acts = pre ++ .poll now j :: post → Asks pre j item →
    (after ty start pre).live j = true → j ∈ (after ty start (pre ++ [.poll now j])).cache.started →
    (after ty start (pre ++ [.poll now j])).Returned j r →
    (∃ v data, (after ty start pre).loadedOf j = some (.ok v) ∧
      start.envelope.encode ty v = .ok data ∧ r = .ok (keptOf v data)) ∧
    ∀ w item', Asks pre w item' → (after ty start pre).Waits w → .drop w ∉ post →
      ∀ t, .poll t w ∈ post → (after ty start acts).Returned w r

/-! ## Counting loaders -/

/-- A list without repetition in which all members are the same has one member at most. -/
lemma length_le_one {l : List Caller} (hnodup : l.Nodup) (hsame : ∀ i ∈ l, ∀ j ∈ l, i = j) :
    l.length ≤ 1 := by
  cases l with
  | nil => exact Nat.zero_le 1
  | cons i rest =>
    cases rest with
    | nil => exact Nat.le_refl 1
    | cons j rest =>
      have heq : i = j := hsame i (by simp) j (by simp)
      simp [heq] at hnodup

section Course

variable {ty : Ty} {key : String} {start : Cache MemoryStore} {acts : List (Act ρ)}

/-- A caller that is not lost is live, or has returned. -/
lemma Scene.live_or_returned {s : Scene} {i : Caller} (h : s.lost i = false) :
    s.live i = true ∨ ∃ r, s.Returned i r := by
  unfold Scene.lost at h
  cases hlive : s.live i with
  | true => exact .inl rfl
  | false =>
    rw [hlive] at h
    have hany : (s.tasks.ended.any fun e => e.1 == i && e.2.isSome) = true := by simpa using h
    obtain ⟨⟨w, x⟩, hmem, he⟩ := List.any_eq_true.mp hany
    rw [Bool.and_eq_true] at he
    obtain ⟨hw, hx⟩ := he
    obtain rfl : w = i := eq_of_beq hw
    obtain ⟨r, hr⟩ := Option.isSome_iff_exists.mp hx
    obtain rfl : x = some r := hr
    exact .inr ⟨r, hmem⟩

/-- **The loaders of two callers that are not lost** are the same.

**Proof sketch.** Two callers whose loaders run conduct runs of one key. When one of the two has
returned, its value is stored, and then no loader runs. -/
lemma Invariant.loader_unique (h : Invariant ty key start acts) {i j : Caller}
    {item item' : Item ρ} (hi : Asks acts i item) (hj : Asks acts j item')
    (hstarted : i ∈ (after ty start acts).cache.started)
    (hstarted' : j ∈ (after ty start acts).cache.started)
    (hlost : (after ty start acts).lost i = false)
    (hlost' : (after ty start acts).lost j = false) : i = j := by
  obtain ⟨ph, -, habsent, hstored⟩ := h.phase
  have hruns : ∀ w item, Asks acts w item → w ∈ (after ty start acts).cache.started →
      (after ty start acts).live w = true → (after ty start acts).cache.flights.Runs w ∧
        (after ty start acts).cache.flights.Keyed w key := by
    intro w item hw hmem hlive
    obtain ⟨p, loaded, ht⟩ := Scene.live_iff.mp hlive
    have hstanding := ((h.known w).asking item _ hw ht).2
    exact ⟨Standing.runs hstanding hmem, hstanding.keyed h.orderly⟩
  rcases Scene.live_or_returned hlost with hlive | ⟨r, hr⟩
  · rcases Scene.live_or_returned hlost' with hlive' | ⟨r', hr'⟩
    · obtain ⟨hrun, hkeyed⟩ := hruns i item hi hstarted hlive
      obtain ⟨hrun', hkeyed'⟩ := hruns j item' hj hstarted' hlive'
      by_contra hne
      obtain ⟨q, k, hs⟩ := Flight.Group.Orderly.sits_of_runs hrun'
      obtain rfl := hkeyed' q k none hs
      exact h.orderly.alone_of_runs hrun hkeyed j (Ne.symm hne) q hs hrun'
    · have hab := habsent i item hi hstarted hlive
      cases hab.symm.trans (hstored j item' r' hj hstarted' hr')
  · rcases Scene.live_or_returned hlost' with hlive' | ⟨r', hr'⟩
    · have hab := habsent j item' hj hstarted' hlive'
      cases hab.symm.trans (hstored i item r hi hstarted hr)
    · exact h.single i j item item' r r' hi hj hstarted hstarted' hr hr'

/-- All loaders that were started but one are those of callers that were lost. -/
lemma Invariant.loads_le (h : Invariant ty key start acts) :
    (loads acts (after ty start acts)).length ≤
      1 + (loads acts (after ty start acts)).countP (after ty start acts).lost := by
  have hkept : (loads acts (after ty start acts)).countP
      (fun i => !(after ty start acts).lost i) ≤ 1 := by
    rw [List.countP_eq_length_filter]
    refine length_le_one (h.once.filter _) fun i hi j hj => ?_
    obtain ⟨hi, hlost⟩ := List.mem_filter.mp hi
    obtain ⟨hj, hlost'⟩ := List.mem_filter.mp hj
    obtain ⟨hstarted, hasks⟩ := List.mem_filter.mp hi
    obtain ⟨hstarted', hasks'⟩ := List.mem_filter.mp hj
    obtain ⟨item, hi⟩ := (asks_iff acts i).mp hasks
    obtain ⟨item', hj⟩ := (asks_iff acts j).mp hasks'
    exact h.loader_unique hi hj hstarted hstarted' (by simpa using hlost) (by simpa using hlost')
  have hsplit := List.length_eq_countP_add_countP (after ty start acts).lost
    (l := loads acts (after ty start acts))
  simp only [Bool.not_eq_true, Bool.decide_eq_false] at hsplit
  omega

/-! ## Heirs -/

/-- Who has ended, stays so. -/
lemma ended_snoc (e : Act ρ) {w : Caller} {x : Option Reading}
    (h : (w, x) ∈ (after ty start acts).tasks.ended) :
    (w, x) ∈ (after ty start (acts ++ [e])).tasks.ended := by
  rw [after_snoc]
  cases e with
  | come item loaded => exact h
  | other p loaded => exact h
  | poll now i =>
    cases hlive : (after ty start acts).live i with
    | false =>
      rw [Scene.step_poll_over hlive]
      exact h
    | true =>
      obtain ⟨p, loaded, ht⟩ := Scene.live_iff.mp hlive
      rw [Scene.step_poll ht ⟨rfl, rfl⟩]
      exact List.mem_append_left _ h
  | drop i => exact h
  | supply i answer => exact h

/-- Who has ended, stays so, whatever happens. -/
lemma ended_append (post : List (Act ρ)) {w : Caller} {x : Option Reading}
    (h : (w, x) ∈ (after ty start acts).tasks.ended) :
    (w, x) ∈ (after ty start (acts ++ post)).tasks.ended := by
  induction post using List.reverseRecOn with
  | nil =>
    rw [List.append_nil]
    exact h
  | append_singleton post e ih =>
    rw [← List.append_assoc]
    exact ended_snoc e ih

/-- A caller takes part for ever. -/
lemma Asks.append {w : Caller} {item : Item ρ} (h : Asks acts w item) (post : List (Act ρ)) :
    Asks (acts ++ post) w item := by
  unfold Asks at h ⊢
  have hw := (List.getElem?_eq_some_iff.mp h).1
  rw [roster, List.filterMap_append]
  exact (List.getElem?_append_left hw).trans h

/-- What is known of the callers was known at any time before. -/
lemma Fair.of_append {e : Envelope} {post : List (Act ρ)} (h : Fair e ty key (acts ++ post)) :
    Fair e ty key acts := by
  induction post using List.reverseRecOn with
  | nil =>
    rw [List.append_nil] at h
    exact h
  | append_singleton post a ih =>
    rw [← List.append_assoc] at h
    exact ih h.of_snoc

/-- A live caller that is polled moves. -/
lemma Invariant.moved_poll (h : Invariant ty key start acts) (hty : ty ≠ .scalar .literal)
    (hfar : start.setup.far = true) (hfair : Fair start.envelope ty key acts) {i : Caller}
    (hlive : (after ty start acts).live i = true) (now : Instant) :
    Moved i (after ty start acts) ((after ty start acts).step ty (.poll now i : Act ρ)) := by
  obtain ⟨p, loaded, ht⟩ := Scene.live_iff.mp hlive
  have hi : i < (roster acts).length := by
    rw [← h.length]
    exact (List.getElem?_eq_some_iff.mp ht).1
  rcases asks_or_elsewhere hi with ⟨item, hasks⟩ | helse
  · obtain ⟨ph, ds, r, c', hvisits, hturned, -, -⟩ := h.turned hty hfar hfair hasks ht now
    exact Scene.moved_poll ht hvisits hturned.sound hturned.setup hturned.ttl hturned.passes
      (started_of_ends hturned.ends).1
  · obtain ⟨hrest, hown⟩ := (h.known i).elsewhere _ helse ht
    obtain ⟨havoids, hpoised⟩ := hrest p rfl
    obtain ⟨ds, r, c', hvisits, hspared, -, -⟩ := havoids.visits
      ⟨now, i, loaded⟩ h.sound h.orderly hown hpoised
    exact Scene.moved_poll ht hvisits hspared.sound hspared.setup hspared.ttl
      hspared.flights.toPasses hspared.started

/-- A caller of the shared load that sits in a call is live. -/
lemma Invariant.live_of_sits (h : Invariant ty key start acts) {w : Caller} {item : Item ρ}
    (hw : Asks acts w item) {q : Nat} {output : Option Outcome}
    (hs : (after ty start acts).cache.flights.Sits w q key output) :
    (after ty start acts).live w = true := by
  have hlt : w < (after ty start acts).tasks.tasks.length := by
    rw [h.length]
    exact (List.getElem?_eq_some_iff.mp hw).1
  have ht := List.getElem?_eq_getElem hlt
  have hstanding := ((h.known w).asking item _ hw ht).2
  cases hrest : (after ty start acts).tasks.tasks[w].rest with
  | some p =>
    rw [Scene.live, ht, Option.bind_some, hrest]
    rfl
  | none =>
    rw [hrest] at hstanding
    cases hstanding with
    | ended hseat => exact absurd hs (h.orderly.seat_eq_none_iff.mp hseat q key output)

/-- **A caller that sits in a complete call** stays there, unless it is dropped, and receives the
output when it is polled. -/
lemma Invariant.heir_snoc (h : Invariant ty key start acts) (hty : ty ≠ .scalar .literal)
    (hfar : start.setup.far = true) (hfair : Fair start.envelope ty key acts) {w : Caller}
    {item : Item ρ} (hw : Asks acts w item) {q : Nat} {outcome : Outcome}
    (hs : (after ty start acts).cache.flights.Sits w q key (some outcome)) {e : Act ρ}
    (hdrop : e ≠ .drop w) :
    ((∀ t, e ≠ .poll t w) ∧
        (after ty start (acts ++ [e])).cache.flights.Sits w q key (some outcome)) ∨
      (after ty start (acts ++ [e])).Returned w (Setup.receive ty outcome) := by
  rw [after_snoc]
  cases e with
  | come item' loaded => exact .inl ⟨by simp, hs⟩
  | other p loaded => exact .inl ⟨by simp, hs⟩
  | supply i answer => exact .inl ⟨by simp, hs⟩
  | drop i =>
    have hne : w ≠ i := fun heq => hdrop (by rw [heq])
    have hm := Scene.moved_drop (ρ := ρ) ty h.sound h.orderly i
    exact .inl ⟨by simp, hm.passes.complete w hne q key outcome hs⟩
  | poll now i =>
    by_cases hi : i = w
    · subst hi
      obtain ⟨p, loaded, ht⟩ := Scene.live_iff.mp (h.live_of_sits hw hs)
      obtain ⟨ph, ds, r, c', hvisits, hturned, -, -⟩ := h.turned hty hfar hfair hw ht now
      obtain rfl := hturned.heir q outcome hs
      rw [Scene.step_poll ht hvisits]
      exact .inr (List.mem_append_right _ (List.mem_singleton.mpr rfl))
    · refine .inl ⟨fun t heq => ?_, ?_⟩
      · cases heq
        exact hi rfl
      · cases hlive : (after ty start acts).live i with
        | false =>
          rw [Scene.step_poll_over hlive]
          exact hs
        | true =>
          have hm := h.moved_poll hty hfar hfair hlive now
          exact hm.passes.complete w (Ne.symm hi) q key outcome hs

/-- A caller that sits in a complete call receives its output when it is polled, unless it is
dropped before. -/
lemma heir_append (hty : ty ≠ .scalar .literal) (hready : Ready start) {w : Caller}
    {item : Item ρ} (hw : Asks acts w item) {q : Nat} {outcome : Outcome}
    (hs : (after ty start acts).cache.flights.Sits w q key (some outcome)) :
    ∀ post : List (Act ρ), Fair start.envelope ty key (acts ++ post) → .drop w ∉ post →
      ((∀ t, .poll t w ∉ post) ∧
          (after ty start (acts ++ post)).cache.flights.Sits w q key (some outcome)) ∨
        (after ty start (acts ++ post)).Returned w (Setup.receive ty outcome) := by
  intro post
  induction post using List.reverseRecOn with
  | nil =>
    rw [List.append_nil]
    exact fun _ _ => .inl ⟨fun t => List.not_mem_nil, hs⟩
  | append_singleton post e ih =>
    rw [← List.append_assoc]
    intro hfair hdrop
    rw [List.mem_append, List.mem_singleton, not_or] at hdrop
    rcases ih hfair.of_snoc hdrop.1 with ⟨hnot, hsits⟩ | hreturned
    · have h := invariant_after hty hready hfair.of_snoc
      rcases h.heir_snoc hty hready.far hfair.of_snoc (hw.append post) hsits (Ne.symm hdrop.2) with
        ⟨hne, hsits'⟩ | hreturned
      · refine .inl ⟨fun t hmem => ?_, hsits'⟩
        rcases List.mem_append.mp hmem with hmem | hmem
        · exact hnot t hmem
        · exact hne t (List.mem_singleton.mp hmem).symm
      · exact .inr hreturned
    · exact .inr (ended_snoc e hreturned)

/-- **A caller that returns and whose loader was started** gets what its loader gave, and so does
everybody who waits for its run. -/
lemma Invariant.given (h : Invariant ty key start acts) (hty : ty ≠ .scalar .literal)
    (hfar : start.setup.far = true) (hfair : Fair start.envelope ty key acts) {j : Caller}
    {item : Item ρ} (hj : Asks acts j item) {now : Instant} {r : Reading}
    (hlive : (after ty start acts).live j = true)
    (hstarted : j ∈ (after ty start (acts ++ [.poll now j])).cache.started)
    (hr : (after ty start (acts ++ [.poll now j])).Returned j r) :
    ∃ v data, (after ty start acts).loadedOf j = some (.ok v) ∧
      start.envelope.Keeps ty v data ∧ r = Setup.receive ty (.ok data) ∧
      ∀ w, w ≠ j → ∀ q, (after ty start acts).cache.flights.Sits w q key none →
        (after ty start (acts ++ [.poll now j])).cache.flights.Sits w q key (some (.ok data)) := by
  obtain ⟨p, loaded, ht⟩ := Scene.live_iff.mp hlive
  obtain ⟨ph, ds, progress, c', hvisits, hturned, -, -⟩ := h.turned hty hfar hfair hj ht now
  rw [after_snoc, Scene.step_poll ht hvisits] at hstarted hr ⊢
  -- it has returned in this poll
  have hnew : (j, some r) ∈ endingsOf j progress := by
    rcases List.mem_append.mp hr with hold | hnew
    · exact absurd (hlive.symm.trans ((h.known j).ended _ hold).2) (by simp)
    · exact hnew
  have hfinished : progress = .finished r := by
    rcases (mem_endingsOf.mp hnew).2 with ⟨a, hprogress, heq⟩ | ⟨-, heq⟩
    · rw [hprogress, Option.some.inj heq]
    · cases heq
  cases hturned.ends with
  | waiting => cases hfinished
  | done _ _ _ _ hidle => exact absurd hstarted (not_mem_of_idle hidle)
  | loading => cases hfinished
  | loaded v data _ _ hloaded hv _ _ _ hheirs =>
    refine ⟨v, data, ?_, hv, (Progress.finished.inj hfinished).symm, hheirs⟩
    rw [Scene.loadedOf, ht]
    exact hloaded
  | failed => cases hfinished

/-- **Shared loads run one loader**, whatever the tiers hold at first and in whatever order the
callers come, are polled and are dropped.

**Proof sketch.** The invariant gives the number of loaders, the number of deletions and the order
of writes and removals. What a run gives goes to all callers that sit in its call when it ends, and
stays there for each of them until it is polled. -/
theorem one_load (ty : Ty) (key : String) (start : Cache MemoryStore) (acts : List (Act ρ))
    (hty : ty ≠ .scalar .literal) (hready : Ready start)
    (hfair : Fair start.envelope ty key acts) : OneLoad ty key start acts where
  loads := by
    have h := invariant_after hty hready hfair
    exact ⟨h.once, h.loads_le⟩
  lost := by
    have h := invariant_after hty hready hfair
    intro i item hi hlost
    unfold Scene.lost at hlost
    rw [Bool.and_eq_true] at hlost
    obtain ⟨hdead, hnone⟩ := hlost
    have hlt := (List.getElem?_eq_some_iff.mp hi).1
    rcases (h.known i).gone hlt (by simpa using hdead) with hdrop | ⟨x, hx⟩
    · exact .inl hdrop
    · cases x with
      | none => exact .inr ⟨hx, (h.known i).crashed item hi hx⟩
      | some r =>
        have hany : ((after ty start acts).tasks.ended.any fun e => e.1 == i && e.2.isSome) =
            true := List.any_eq_true.mpr ⟨(i, some r), hx, by simp⟩
        rw [hany] at hnone
        cases hnone
  deletions := by
    obtain ⟨ph, hin, -⟩ := (invariant_after hty hready hfair).phase
    exact hin.deletions
  lasting := by
    obtain ⟨ph, hin, -⟩ := (invariant_after hty hready hfair).phase
    exact hin.lasting
  given := by
    intro pre now j post item r hacts hj hlive hstarted hr
    have hsplit : acts = (pre ++ [.poll now j]) ++ post := by
      rw [hacts, List.append_assoc]
      rfl
    subst hsplit
    have hfair' : Fair start.envelope ty key pre := hfair.of_append.of_append
    have h := invariant_after hty hready hfair'
    obtain ⟨v, data, hloaded, hv, hreceived, hheirs⟩ :=
      h.given hty hready.far hfair' hj hlive hstarted hr
    refine ⟨⟨v, data, hloaded, hv.encode, ?_⟩, fun w item' hw hwaits hdrop t ht => ?_⟩
    · rw [hreceived]
      exact hv.read
    · obtain ⟨q, c, hc, -, hout⟩ := h.orderly.seated_of_wait hwaits
      have hlt : w < (after ty start pre).tasks.tasks.length := by
        rw [h.length]
        exact (List.getElem?_eq_some_iff.mp hw).1
      have hstanding := ((h.known w).asking item' _ hw (List.getElem?_eq_getElem hlt)).2
      have hkey := hstanding.keyed h.orderly q c.key c.output ⟨c, hc, rfl, rfl⟩
      have hsits : (after ty start pre).cache.flights.Sits w q key none := ⟨c, hc, hkey, hout⟩
      by_cases hne : w = j
      · subst hne
        exact ended_append post hr
      · rcases heir_append hty hready (hw.append _) (hheirs w hne q hsits) post hfair hdrop with
          ⟨hnot, -⟩ | hreturned
        · exact absurd ht (hnot t)
        · rw [hreceived]
          exact hreturned

end Course

/-- An item with a loader. -/
def loadedItem : Item Unit := { key := "k", loader := some () }

/-- The item is plain. -/
lemma plain_loadedItem : loadedItem.Plain {} .buffer "k" :=
  ⟨rfl, rfl, rfl, rfl, fun v hv => by cases hv⟩

/-- A value that a loader can give. -/
lemma keeps_seven : Envelope.Keeps {} .buffer (.buffer [7]) [7] := ⟨rfl, rfl, .inr rfl⟩

/-- Two callers of a key that the far tier does not hold. -/
def twoCallers : List (Act Unit) :=
  [.come loadedItem none, .come loadedItem none, .poll 0 0, .poll 0 1,
    .supply 0 (.ok (.buffer [7])), .poll 1 0, .poll 1 1]

/-- Two callers of a key that the far tier does not hold have one load. -/
theorem one_load_two_callers :
    Ready { far := some {} } ∧ Fair {} .buffer "k" twoCallers ∧
      OneLoad .buffer "k" { far := some {} } twoCallers := by
  have hready : Ready { far := some {} } :=
    { near := fun t ht => by simp at ht
      far := rfl
      flights := rfl
      started := rfl }
  have hfair : Fair {} .buffer "k" twoCallers := by
    refine ⟨?_, ?_, ?_, ?_⟩
    · intro item loaded hmem
      obtain ⟨rfl, -⟩ : item = loadedItem ∧ loaded = none := by simpa [twoCallers] using hmem
      exact plain_loadedItem
    · intro item answer hmem
      simp [twoCallers] at hmem
    · intro i item answer hmem _
      obtain ⟨-, rfl⟩ : i = 0 ∧ answer = .ok (.buffer [7]) := by simpa [twoCallers] using hmem
      exact ⟨_, _, rfl, keeps_seven⟩
    · intro p loaded hmem
      simp [twoCallers] at hmem
  exact ⟨hready, hfair, one_load .buffer "k" { far := some {} } twoCallers (by simp) hready hfair⟩

/-! ## More loaders than drops -/

section Cramped

variable {s : Setup} {ty : Ty} {item : Item ρ} {key : String} {visit : Visit}
  {c c' : Cache MemoryStore} {v : Value} {data : Bytes}

/-- A cache of two tiers without an entry under a key, in which the clock cannot represent the
default deadline of the near tier. -/
structure Cramped (key : String) (c : Cache MemoryStore) : Prop where
  sound : c.Sound
  tiers : c.setup.near = true ∧ c.setup.far = true
  near : c.nearAt key = none
  far : c.farAt key = none
  long : ∀ t, c.near = some t → Instant.horizon ≤ t.defaultTtl - t.defaultTtl / 10

/-- A cramped cache stays so under look-ups. -/
lemma Cramped.follows (h : Cramped key c) (hfollows : c.Follows c') : Cramped key c' where
  sound := hfollows.sound
  tiers := by
    rw [hfollows.setup]
    exact h.tiers
  near := by
    cases he : c'.nearAt key with
    | none => rfl
    | some e =>
      rcases hfollows.near key e he with hc | ⟨held, hheld, -⟩
      · cases h.near.symm.trans hc
      · cases h.far.symm.trans hheld
  far := by
    cases hh : c'.farAt key with
    | none => rfl
    | some held => cases h.far.symm.trans (hfollows.far key held hh)
  long t ht := by
    have hsame := hfollows.ttl
    rw [ht, Option.map_some] at hsame
    obtain ⟨t₀, ht₀, httl⟩ := Option.map_eq_some_iff.mp hsame.symm
    rw [← httl]
    exact h.long t₀ ht₀

/-- A cramped cache stays so whatever else changes than the tiers. -/
lemma Cramped.of_same (h : Cramped key c) (hnear : c'.near = c.near) (hfar : c'.far = c.far) :
    Cramped key c' where
  sound t ht := h.sound t (hnear ▸ ht)
  tiers := by
    have htiers := h.tiers
    unfold Cache.setup at htiers ⊢
    rw [hnear, hfar]
    exact htiers
  near := (Cache.nearAt_congr hnear key).trans h.near
  far := (Cache.farAt_congr hfar key).trans h.far
  long t ht := h.long t (hnear ▸ ht)

/-- A look-up in a cramped cache misses. -/
lemma Cramped.lookup (h : Cramped key c) (ty : Ty) (visit : Visit) (hs : c.setup = s)
    {o : CallOptions} (hskip : o.skip = .none) :
    ∃ ds c', (s.lookup ty key o).Does visit c ds (.finished (.error .missing)) c' ∧
      c.Follows c' := by
  have htier : s.hasTier = true := by
    rw [Setup.hasTier, ← hs, h.tiers.1]
    rfl
  obtain ⟨ds, r, c', hdoes, hfollows, -, hfound, -⟩ :=
    Setup.lookup_does visit key ty h.sound hs htier hskip
  cases hfound with
  | missing => exact ⟨ds, c', hdoes, hfollows⟩
  | near e he => cases h.near.symm.trans he
  | far held hheld => cases h.far.symm.trans hheld
  | crashed held hheld => cases h.far.symm.trans hheld

/-- Storing what a loader has given crashes in a cramped cache. -/
lemma Cramped.afterLoad (h : Cramped key c) (visit : Visit) (hs : c.setup = s)
    (hitem : item.Plain s.envelope ty key) (hv : s.envelope.Keeps ty v data) :
    (s.afterLoad ty item (.ok v)).Does visit c [] .crashed c := by
  obtain rfl := hitem.key
  have hnear : s.near = true := by
    rw [← hs]
    exact h.tiers.1
  obtain ⟨t, ht⟩ : ∃ t, c.near = some t := Option.isSome_iff_exists.mp h.tiers.1
  have hlife : item.options.lifetime = 0 := by
    rw [CallOptions.lifetime, if_pos (.inl hitem.ttl), hitem.ttl]
  have hput : t.put visit.now item.key (Setup.contentOf ty v data item.options)
      item.options.lifetime = none := by
    refine NearTier.put_eq_none ?_ _ _
    rw [hlife, if_pos rfl]
    exact h.long t ht
  have hstore : (s.store ty item.key v data item.options).Does visit c [] .crashed c := by
    unfold Setup.store Setup.putNear
    rw [Setup.not_covers_all hitem.skip, if_neg Bool.false_ne_true, Setup.hasTier, hnear,
      Setup.usesNear_eq hitem.skip, hnear]
    exact (Prog.Does.put_crashed ht hput).bind_crashed
  simp only [Setup.afterLoad, Setup.storeProduced, hv.encode]
  exact hstore.bind_crashed

/-- **A caller that finds a cramped cache and nobody running** starts its loader, and crashes with
what the loader gives. -/
lemma Cramped.once (h : Cramped key c) (visit : Visit) (hs : c.setup = s)
    (hitem : item.Plain s.envelope ty key) {name : ρ} (hloader : item.loader = some name)
    (hloaded : visit.loaded = some (.ok v)) (hv : s.envelope.Keeps ty v data)
    (hturn : (c.flights.join visit.caller key).turn visit.caller = .start) :
    ∃ ds c', (s.once ty item).Visits visit c ds .crashed c' ∧ Cramped key c' ∧ c'.setup = s ∧
      c'.started = c.started ++ [visit.caller] ∧
      c'.flights =
        ((c.flights.join visit.caller key).start visit.caller).leave visit.caller := by
  obtain rfl := hitem.key
  obtain ⟨ds, c₁, hfirst, hfollows₁⟩ :=
    h.lookup ty visit (o := item.options) hs hitem.skip
  let c₂ : Cache MemoryStore :=
    { c₁ with flights := (c₁.flights.join visit.caller item.key).start visit.caller }
  have h₂ : Cramped item.key c₂ := (h.follows hfollows₁).of_same rfl rfl
  have hs₂ : c₂.setup = s := hfollows₁.setup.trans hs
  obtain ⟨ds', c₃, hsecond, hfollows₃⟩ :=
    h₂.lookup ty visit (o := item.options) hs₂ hitem.skip
  have hs₃ : c₃.setup = s := hfollows₃.setup.trans hs₂
  let c₄ : Cache MemoryStore :=
    { c₃.recordEvent (.load "once") with started := c₃.started ++ [visit.caller] }
  have h₄ : Cramped item.key c₄ := (h₂.follows hfollows₃).of_same rfl rfl
  -- the run, from its look-up to the crash
  have hcompute : (s.computeStored ty item).Does visit c₃ [] .crashed c₄ := by
    rw [Setup.computeStored_of_loader hloader]
    exact .count (.startLoad (.awaitLoad hloaded (h₄.afterLoad visit hs₃ hitem hv)))
  have hflight : (s.flight ty item).Does visit c₂ (ds' ++ []) .crashed c₄ := by
    rw [Setup.flight_eq]
    exact hsecond.bind hcompute
  rw [← hfollows₁.flights] at hturn
  have hjoin : (s.joinRun ty item).Does visit c₁ (ds' ++ []) .crashed c₄ :=
    .join_start hturn hflight.bind_crashed
  refine ⟨ds ++ (ds' ++ []), { c₄ with flights := c₄.flights.leave visit.caller }, ?_,
    h₄.of_same rfl rfl, hs₃, ?_, ?_⟩
  · rw [Setup.once_eq]
    exact hfirst.bind_visits hjoin.visits_crashed
  · show c₃.started ++ [visit.caller] = c.started ++ [visit.caller]
    rw [hfollows₃.started]
    exact congrArg (· ++ [visit.caller]) hfollows₁.started
  · show c₃.flights.leave visit.caller = _
    rw [hfollows₃.flights, ← hfollows₁.flights]

end Cramped

/-- A near tier with the longest default lifetime. -/
def longTier : NearTier where
  entries := Eviction.Slab.empty (fun _ => 0) 64 4096
  size := 64
  samples := 4096
  defaultTtl := Span.seconds 0xffffffffffffffff
  draws := fun _ => 0
  drawn := 0

/-- A cache of that near tier and an empty far tier. -/
def longCache : Cache MemoryStore := { near := some longTier, far := some {} }

/-- Two callers, one after the other, whose loaders give a value at once. -/
def twoInTurn : List (Act Unit) :=
  [.come loadedItem (some (.ok (.buffer [7]))), .poll 0 0,
    .come loadedItem (some (.ok (.buffer [7]))), .poll 0 1]

/-- The near tier can be reached. -/
lemma reached_longTier : longTier.Reached := by
  have hnew : NearTier.new (fun _ => 0) (fun _ => 0) 64 4096 =
      some { longTier with defaultTtl := NearTier.standardTtl } := by
    simp [NearTier.new, Eviction.Slab.new, longTier, Eviction.Slab.sizeLimit,
      Eviction.Slab.sampleLimit]
  exact (NearTier.Reached.new hnew).withTtl (Span.seconds 0xffffffffffffffff)

/-- The clock cannot represent the deadlines of the near tier. -/
lemma cramped_longCache : Cramped "k" longCache where
  sound t ht := by
    obtain rfl := Option.some.inj ht
    exact reached_longTier.sound
  tiers := ⟨rfl, rfl⟩
  near := by simp [Cache.nearAt, longCache, longTier, Eviction.Slab.peek, Eviction.Slab.empty]
  far := by simp [Cache.farAt, longCache]
  long t ht := by
    obtain rfl := Option.some.inj ht
    decide

/-- **Two loaders and no drop**: the first caller crashes when it stores what its loader gave, and
the second one finds nothing and starts its own loader. -/
theorem two_loaders_without_drop : Ready longCache ∧
    Fair longCache.envelope .buffer "k" twoInTurn ∧ (∀ i, .drop i ∉ twoInTurn) ∧
    ¬ (loads twoInTurn (after .buffer longCache twoInTurn)).length ≤ 1 := by
  refine ⟨⟨fun t ht => ?_, rfl, rfl, rfl⟩, ⟨?_, ?_, ?_, ?_⟩, ?_, ?_⟩
  · obtain rfl := Option.some.inj ht
    exact reached_longTier
  · intro item loaded hmem
    obtain ⟨rfl, -⟩ : item = loadedItem ∧ loaded = some (.ok (.buffer [7])) := by
      simpa [twoInTurn] using hmem
    exact plain_loadedItem
  · intro item answer hmem
    obtain ⟨-, rfl⟩ : item = loadedItem ∧ answer = .ok (.buffer [7]) := by
      simpa [twoInTurn] using hmem
    exact ⟨_, _, rfl, keeps_seven⟩
  · intro i item answer hmem
    simp [twoInTurn] at hmem
  · intro p loaded hmem
    simp [twoInTurn] at hmem
  · intro i
    simp [twoInTurn]
  · let p := longCache.setup.once .buffer loadedItem
    let given : Option (Except LoadFailure Value) := some (.ok (.buffer [7]))
    -- the first caller starts its loader and crashes
    obtain ⟨ds₁, c₁, hvisits₁, hcramped₁, hs₁, hstarted₁, hflights₁⟩ :=
      cramped_longCache.once ⟨0, 0, given⟩ rfl plain_loadedItem rfl rfl keeps_seven rfl
    let left : Scene :=
      { tasks := ⟨c₁, [⟨none, given⟩, ⟨some p, given⟩], [(0, none)]⟩, deeds := ds₁ }
    have hleft : after .buffer longCache (twoInTurn.take 3) = left := by
      show ((after .buffer longCache (twoInTurn.take 1)).step .buffer
        (.poll 0 0 : Act Unit)).step .buffer (.come loadedItem given : Act Unit) = _
      rw [Scene.step_poll (s := after .buffer longCache (twoInTurn.take 1)) rfl hvisits₁]
      show ({ tasks := ⟨c₁, [⟨none, given⟩, ⟨some (c₁.setup.once .buffer loadedItem), given⟩],
        [(0, none)]⟩, deeds := ds₁ } : Scene) = left
      rw [hs₁]
    -- the second caller finds nobody running
    have hturn : (c₁.flights.join 1 "k").turn 1 = .start := by
      rw [hflights₁]
      rfl
    obtain ⟨ds₂, c₂, hvisits₂, -, -, hstarted₂, -⟩ :=
      hcramped₁.once ⟨0, 1, given⟩ hs₁ plain_loadedItem rfl rfl keeps_seven hturn
    have hlast : (after .buffer longCache twoInTurn).cache = c₂ := by
      show ((after .buffer longCache (twoInTurn.take 3)).step .buffer
        (.poll 0 1 : Act Unit)).cache = _
      rw [hleft, Scene.step_poll (s := left) rfl hvisits₂]
      rfl
    have hboth : (after .buffer longCache twoInTurn).cache.started = [0, 1] := by
      rw [hlast, hstarted₂]
      exact congrArg (· ++ [1]) hstarted₁
    rw [loads, hboth]
    decide

end LayeredCache.SharedLoad
