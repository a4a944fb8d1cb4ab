import LayeredCache.Proofs.Effort.Shapes
import LayeredCache.Proofs.Flight.Passing

/-!
# Who leads a shared run

A shared run is led by one caller after another: the next one begins only when the one before it was
dropped or has crashed, and none begins once the run is complete. Callers are followed here by their
contacts alone, which tell whether a caller leads a run now and which run it has led.

## Main definitions

* `Flight.Group.Leads`, `Flight.Group.Complete` — a caller leads the run at a place; the run there
  is complete.
* `Effort.Dealt` — how a step of a caller changes the table of shared runs.
* `Effort.Led` — the table of shared runs goes with the contacts of the callers.

## Main results

* `Effort.dealt_step` — every step deals with the shared runs as its contact says.
* `Effort.Led.step`, `Effort.Led.leave` — steps, and callers that are dropped, keep the agreement.
-/

set_option autoImplicit false

namespace LayeredCache

open Flight

/-! ## Leaders and complete runs -/

namespace Flight.Group

variable {τ : Type} {g g' : Group τ} {i w : Caller} {p : Nat} {key : String}

/-- A caller leads the run at a place. -/
def Leads (g : Group τ) (i : Caller) (p : Nat) : Prop := ∃ c, g.Conducts i p c

/-- The run at a place is complete. -/
def Complete (g : Group τ) (p : Nat) : Prop := ∃ c, g.calls[p]? = some c ∧ c.output.isSome = true

/-- A caller that leads a run runs. -/
lemma Leads.runs (h : g.Leads i p) : g.Runs i := ⟨p, h⟩

/-- The others lead the same runs while a caller acts. -/
lemma Leads.passes (h : g.Leads w p) (hpasses : Passes i g g') (hf : g.Orderly) (hw : w ≠ i) :
    g'.Leads w p := by
  obtain ⟨c, hc⟩ := h
  obtain ⟨q, d, hd⟩ := (hpasses.runs w hw).mpr ⟨p, c, hc⟩
  obtain ⟨output, hs⟩ := hpasses.others w hw q d.key none ⟨d, hd.seated, rfl, hd.2.2.2⟩
  obtain ⟨rfl, -, -⟩ := hf.sits_unique hs ⟨c, hc.seated, rfl, rfl⟩
  exact ⟨d, hd⟩

/-- A change of one call that keeps its output keeps what is complete. -/
lemma Complete.update (h : g.Complete p) (place : Nat) {f : Call τ → Call τ}
    (hf : ∀ c, c.output.isSome = true → (f c).output.isSome = true) :
    (g.update place f).Complete p := by
  obtain ⟨c, hc, hout⟩ := h
  unfold Complete
  rw [calls_update]
  by_cases hp : p = place
  · subst hp
    refine ⟨f c, ?_, hf c hout⟩
    simp [hc]
  · refine ⟨c, ?_, hout⟩
    simp [hp, hc]

/-- Joining keeps what is complete. -/
lemma Complete.join (h : g.Complete p) (i : Caller) (key : String) : (g.join i key).Complete p := by
  unfold Group.join
  split
  · exact h
  · unfold enter
    split
    · exact h.update _ fun c hc => hc
    · obtain ⟨c, hc, hout⟩ := h
      refine ⟨c, ?_, hout⟩
      rw [List.getElem?_append_left (List.getElem?_eq_some_iff.mp hc).1]
      exact hc

/-- Beginning to run keeps what is complete. -/
lemma Complete.start (h : g.Complete p) (i : Caller) : (g.start i).Complete p := by
  unfold Group.start
  split
  · exact h
  · exact h.update _ fun c hc => hc

/-- Leaving keeps what is complete. -/
lemma Complete.leave (h : g.Complete p) (i : Caller) : (g.leave i).Complete p := by
  unfold Group.leave
  split
  · exact h
  · split
    · exact h
    · simp only
      split
      · exact h.update _ fun c hc => hc
      · exact h.update _ fun c hc => hc

/-- Landing keeps what is complete. -/
lemma Complete.land (h : g.Complete p) (i : Caller) (v : τ) : (g.land i v).Complete p := by
  unfold Group.land
  split
  · exact h
  · exact (h.update _ fun c _ => rfl).leave i

/-- A caller that leads a run completes it by landing. -/
lemma Leads.land (h : g.Leads i p) (hf : g.Orderly) (v : τ) : (g.land i v).Complete p := by
  obtain ⟨c, hc⟩ := h
  have hseat := hf.seat_eq_some hc.seated
  unfold Group.land
  simp only [hseat]
  refine Complete.leave ⟨{ c with output := some v }, ?_, rfl⟩ i
  rw [calls_update]
  simp [hc.1]

/-- **A caller that is to begin** finds a run that is not complete and that nobody leads, and leads
it then. -/
lemma leads_start (hf : g.Orderly) (hturn : g.turn i = .start) (hseat : g.seat? i = some p) :
    ¬ g.Complete p ∧ (∀ w, ¬ g.Leads w p) ∧ Passes i g (g.start i) ∧ (g.start i).Leads i p := by
  obtain ⟨q, c, hc, hhead, hrunning, hout⟩ := hf.head_of_start hturn
  obtain rfl : q = p :=
    Option.some.inj ((hf.seat_eq_some ⟨hc, List.mem_of_head? hhead⟩).symm.trans hseat)
  refine ⟨?_, ?_, .start hf hc hhead hout, ?_⟩
  · rintro ⟨d, hd, hdone⟩
    obtain rfl : c = d := Option.some.inj (hc.symm.trans hd)
    rw [hout] at hdone
    cases hdone
  · rintro w ⟨d, hd⟩
    obtain rfl : c = d := Option.some.inj (hc.symm.trans hd.1)
    cases hrunning.symm.trans hd.2.2.1
  · obtain ⟨-, hch⟩ := hf.start hc hhead
    exact ⟨_, hch.here, hhead, rfl, hout⟩

end Flight.Group

namespace Effort

open Prog

/-! ## Steps -/

/-- How a step of the caller `i` changes the table of shared runs, by the contact it makes. -/
inductive Dealt (i : Caller) (g : Flight.Group Outcome) :
    Option Contact → Flight.Group Outcome → Prop where
  | free {x : Option Contact} (free : ∀ y ∈ x, shares y = false) : Dealt i g x g
  | waits (key : String) : Dealt i g none (g.join i key)
  | leads {key : String} {place : Nat} (turn : (g.join i key).turn i = .start)
      (seat : (g.join i key).seat? i = some place) :
      Dealt i g (some (.lead place)) ((g.join i key).start i)
  | receives {key : String} (outcome : Outcome) :
      Dealt i g (some (.collect outcome)) ((g.join i key).leave i)
  | lands (outcome : Outcome) : Dealt i g (some (.land outcome)) (g.land i outcome)

/-- **Every step** deals with the shared runs as its contact says. -/
theorem dealt_step {α σ : Type} [FarStore σ] (visit : Visit) (p : Prog α) (c : Cache σ) :
    Dealt visit.caller c.flights (p.contact visit c) (p.step visit c).2.flights := by
  cases p with
  | done a => exact .free (by simp [contact])
  | find key next =>
    cases hnear : c.near with
    | none => simp only [step, contact, hnear]; exact .free (by simp)
    | some t =>
      simp only [step, contact, hnear, Option.map_some]
      exact .free (by simp [shares, Kind.covers])
  | holds key next => exact .free (by simp [contact, shares, Kind.covers])
  | put key content ttl next =>
    cases hnear : c.near with
    | none => simp only [step, contact, hnear]; exact .free (by simp)
    | some t =>
      cases hput : t.put visit.now key content ttl with
      | none =>
        simp only [step, contact, hnear, hput, Option.map_some]
        exact .free (by simp [shares, Kind.covers])
      | some t' =>
        simp only [step, contact, hnear, hput, Option.map_some]
        exact .free (by simp [shares, Kind.covers])
  | drop key next => exact .free (by simp [contact, shares, Kind.covers])
  | call request next =>
    cases hfar : c.far with
    | none => simp only [step, contact, hfar]; exact .free (by simp)
    | some far =>
      simp only [step, contact, hfar, Option.map_some]
      rcases FarStore.answer far visit.now request with ⟨_ | _ | _, far'⟩ <;>
        exact .free (by simp [shares, Kind.covers])
  | tally found next => exact .free (by simp [contact, shares, Kind.covers])
  | count event next => exact .free (by simp [contact, shares, Kind.covers])
  | startLoad next => exact .free (by simp [contact, shares, Kind.covers])
  | awaitLoad next =>
    cases hloaded : visit.loaded with
    | none => simp only [step, contact, hloaded]; exact .free (by simp)
    | some answer =>
      simp only [step, contact, hloaded, Option.map_some]
      exact .free (by simp [shares, Kind.covers])
  | join key next =>
    simp only [step, contact]
    cases hturn : (c.flights.join visit.caller key).turn visit.caller with
    | collect outcome => exact .receives outcome
    | start =>
      obtain ⟨place, hplace⟩ := Flight.Group.seat_of_start hturn
      simp only [hplace, Option.map_some]
      exact .leads hturn hplace
    | outside => exact .waits key
    | wait => exact .waits key
    | running => exact .waits key
  | land outcome next => exact .lands outcome

/-! ## Where callers stand -/

section Stages

variable {log : List Contact} {x : Contact} {stage stage' : Stage} {place : Nat}

/-- Where a caller stands after one more contact. -/
lemma stageOf_snoc (log : List Contact) (x : Contact) :
    stageOf (log ++ [x]) = (stageOf log).bind fun stage => stage.next x := by
  rw [stageOf, stageOf, List.foldlM_append]
  refine congrArg (Option.bind _) (funext fun stage => ?_)
  rw [List.foldlM_cons]
  cases stage.next x <;> rfl

/-- A caller that is outside was never anywhere else. -/
lemma free_of_outside (h : log.foldlM Stage.next stage = some .outside) :
    stage = .outside ∧ ∀ x ∈ log, shares x = false := by
  induction log generalizing stage with
  | nil =>
    obtain rfl := Option.some.inj h
    exact ⟨rfl, by simp⟩
  | cons x log ih =>
    rw [List.foldlM_cons] at h
    obtain ⟨stage', hnext, hrest⟩ := Option.bind_eq_some_iff.mp h
    obtain ⟨rfl, hfree⟩ := ih hrest
    have hx : stage = .outside ∧ shares x = false := by
      cases x <;> cases stage <;> cases hnext <;> exact ⟨rfl, rfl⟩
    refine ⟨hx.1, fun y hy => ?_⟩
    rcases List.mem_cons.mp hy with rfl | hy
    · exact hx.2
    · exact hfree y hy

/-- A caller that begins to lead a run has led none. -/
lemma stage_of_lead (h : (stageOf log).bind (fun stage => stage.next (.lead place)) = some stage') :
    stageOf log = some .outside ∧ stage' = .leading place := by
  obtain ⟨stage, hlog, hnext⟩ := Option.bind_eq_some_iff.mp h
  rw [hlog]
  cases stage <;> cases hnext
  exact ⟨rfl, rfl⟩

/-- A caller that lands was leading a run. -/
lemma stage_of_land {outcome : Outcome}
    (h : (stageOf log).bind (fun stage => stage.next (.land outcome)) = some stage') :
    (∃ place, stageOf log = some (.leading place)) ∧ stage' = .over := by
  obtain ⟨stage, hlog, hnext⟩ := Option.bind_eq_some_iff.mp h
  rw [hlog]
  cases stage <;> cases hnext
  exact ⟨⟨_, rfl⟩, rfl⟩

/-- A caller that receives an outcome has led no run. -/
lemma stage_of_receive {outcome : Outcome}
    (h : (stageOf log).bind (fun stage => stage.next (.collect outcome)) = some stage') :
    stageOf log = some .outside ∧ stage' = .over := by
  obtain ⟨stage, hlog, hnext⟩ := Option.bind_eq_some_iff.mp h
  rw [hlog]
  cases stage <;> cases hnext
  exact ⟨rfl, rfl⟩

/-- A caller that has led a run is not outside. -/
lemma not_outside_of_lead (h : .lead place ∈ log) : stageOf log ≠ some .outside := by
  intro hlog
  cases (free_of_outside hlog).2 _ h

end Stages

/-! ## The agreement -/

/-- The table of shared runs goes with the contacts of the callers: who leads a run by its contacts
does so, unless it has fallen, and a run that was led is complete or led still. -/
structure Led (g : Flight.Group Outcome) (own : Caller → List Contact) (fallen : Caller → Prop) :
    Prop where
  orderly : g.Orderly
  leads : ∀ i place, ¬ fallen i → stageOf (own i) = some (.leading place) → g.Leads i place
  led : ∀ i place, ¬ fallen i → .lead place ∈ own i →
    stageOf (own i) = some (.leading place) ∨ g.Complete place
  /-- All leaders of a run but one have fallen. -/
  single : ∀ i j place, .lead place ∈ own i → .lead place ∈ own j → ¬ fallen i → ¬ fallen j → i = j

namespace Led

variable {g g' : Flight.Group Outcome} {own own' : Caller → List Contact}
  {fallen fallen' : Caller → Prop} {i : Caller} {x : Option Contact}

/-- The other callers, while the caller `i` acts. -/
lemma others (h : Led g own fallen) (hpasses : Flight.Group.Passes i g g')
    (hcomplete : ∀ p, g.Complete p → g'.Complete p) {w : Caller} (hw : w ≠ i) (hup : ¬ fallen w) :
    (∀ place, stageOf (own w) = some (.leading place) → g'.Leads w place) ∧
      ∀ place, .lead place ∈ own w →
        stageOf (own w) = some (.leading place) ∨ g'.Complete place :=
  ⟨fun place hstage => (h.leads w place hup hstage).passes hpasses h.orderly hw,
    fun place hlead => (h.led w place hup hlead).imp id (hcomplete place)⟩

/-- **A caller that falls** keeps the agreement. -/
theorem leave (h : Led g own fallen) (hfallen : ∀ w, fallen' w ↔ fallen w ∨ w = i) :
    Led (g.leave i) own fallen' := by
  have hpasses : Flight.Group.Passes i g (g.leave i) := .leave h.orderly
  have hup : ∀ w, ¬ fallen' w → ¬ fallen w ∧ w ≠ i := fun w hw =>
    ⟨fun hf => hw ((hfallen w).mpr (.inl hf)), fun heq => hw ((hfallen w).mpr (.inr heq))⟩
  refine ⟨hpasses.orderly, fun w place hw => ?_, fun w place hw => ?_,
    fun w w' place hlead hlead' hw hw' => ?_⟩
  · obtain ⟨hup, hne⟩ := hup w hw
    exact (h.others hpasses (fun p hp => hp.leave i) hne hup).1 place
  · obtain ⟨hup, hne⟩ := hup w hw
    exact (h.others hpasses (fun p hp => hp.leave i) hne hup).2 place
  · exact h.single w w' place hlead hlead' (hup w hw).1 (hup w' hw').1

/-- A step of a caller that begins no run keeps the agreement if the caller itself does. -/
lemma of_passes (h : Led g own fallen) (hpasses : Flight.Group.Passes i g g')
    (hcomplete : ∀ p, g.Complete p → g'.Complete p) (hself : own' i = own i ++ x.toList)
    (hothers : ∀ w, w ≠ i → own' w = own w) (hquiet : ∀ place, .lead place ∉ x)
    (hleads : ∀ place, stageOf (own' i) = some (.leading place) → g'.Leads i place)
    (hled : ∀ place, .lead place ∈ own i →
      stageOf (own' i) = some (.leading place) ∨ g'.Complete place) : Led g' own' fallen := by
  have hmem : ∀ w place, .lead place ∈ own' w → .lead place ∈ own w := by
    intro w place hlead
    by_cases hw : w = i
    · subst hw
      rw [hself, List.mem_append, Option.mem_toList] at hlead
      exact hlead.resolve_right (hquiet place)
    · rwa [hothers w hw] at hlead
  refine ⟨hpasses.orderly, fun w place hup hstage => ?_, fun w place hup hlead => ?_,
    fun w w' place hlead hlead' => h.single w w' place (hmem w place hlead) (hmem w' place hlead')⟩
  · by_cases hw : w = i
    · subst hw
      exact hleads place hstage
    · rw [hothers w hw] at hstage
      exact (h.others hpasses hcomplete hw hup).1 place hstage
  · by_cases hw : w = i
    · subst hw
      exact hled place (hmem w place hlead)
    · rw [hothers w hw] at hlead ⊢
      exact (h.others hpasses hcomplete hw hup).2 place hlead

/-- A caller that begins a run keeps the agreement: the run is not complete and nobody leads it, so
that whoever led it has fallen. -/
lemma begins {key : String} {place : Nat} {stage : Stage} (h : Led g own fallen)
    (turn : (g.join i key).turn i = .start) (seat : (g.join i key).seat? i = some place)
    (hself : own' i = own i ++ (some (Contact.lead place)).toList)
    (hothers : ∀ w, w ≠ i → own' w = own w) (hstage : stageOf (own' i) = some stage) :
    Led ((g.join i key).start i) own' fallen := by
  rw [hself, Option.toList_some, stageOf_snoc] at hstage
  obtain ⟨houtside, rfl⟩ := stage_of_lead hstage
  have hjoin : Flight.Group.Passes i g (g.join i key) := .join h.orderly key
  obtain ⟨hopen, hnobody, hstart, hleads⟩ :=
    Flight.Group.leads_start hjoin.orderly turn seat
  have hpasses := hjoin.trans hstart
  have hcomplete : ∀ p, g.Complete p → ((g.join i key).start i).Complete p :=
    fun p hp => (hp.join i key).start i
  have hnone : ∀ q, .lead q ∉ own i := fun q hq => not_outside_of_lead hq houtside
  have hnow : stageOf (own' i) = some (.leading place) := by
    rw [hself, Option.toList_some, stageOf_snoc]
    exact hstage
  -- whoever else has led this run has fallen
  have hfallen : ∀ w, w ≠ i → ¬ fallen w → .lead place ∉ own w := by
    intro w hw hstands hlead
    rcases h.led w place hstands hlead with hleading | hdone
    · exact hnobody w ((h.leads w place hstands hleading).passes hjoin h.orderly hw)
    · exact hopen (hdone.join i key)
  have hmem : ∀ w q, .lead q ∈ own' w → (w = i ∧ q = place) ∨ (w ≠ i ∧ .lead q ∈ own w) := by
    intro w q hlead
    by_cases hw : w = i
    · subst hw
      rw [hself, List.mem_append, Option.toList_some, List.mem_singleton] at hlead
      exact .inl ⟨rfl, Contact.lead.inj (hlead.resolve_left (hnone q))⟩
    · rw [hothers w hw] at hlead
      exact .inr ⟨hw, hlead⟩
  refine ⟨hpasses.orderly, fun w q hstands hleading => ?_, fun w q hstands hlead => ?_,
    fun w w' q hlead hlead' hstands hstands' => ?_⟩
  · by_cases hw : w = i
    · subst hw
      obtain rfl := Stage.leading.inj (Option.some.inj (hnow.symm.trans hleading))
      exact hleads
    · rw [hothers w hw] at hleading
      exact (h.others hpasses hcomplete hw hstands).1 q hleading
  · rcases hmem w q hlead with ⟨rfl, rfl⟩ | ⟨hw, hlead⟩
    · exact .inl hnow
    · rw [hothers w hw]
      exact (h.others hpasses hcomplete hw hstands).2 q hlead
  · rcases hmem w q hlead with ⟨rfl, rfl⟩ | ⟨hw, hlead⟩
    · rcases hmem w' q hlead' with ⟨rfl, -⟩ | ⟨hw', hlead'⟩
      · rfl
      · exact absurd hlead' (hfallen w' hw' hstands')
    · rcases hmem w' q hlead' with ⟨rfl, rfl⟩ | ⟨hw', hlead'⟩
      · exact absurd hlead (hfallen w hw hstands)
      · exact h.single w w' q hlead hlead' hstands hstands'

/-- **A step of a caller** keeps the agreement.

**Proof sketch.** By what the step does with the shared runs. -/
theorem step (h : Led g own fallen) (hdealt : Dealt i g x g') (hup : ¬ fallen i)
    (hself : own' i = own i ++ x.toList) (hothers : ∀ w, w ≠ i → own' w = own w)
    (hstands : ∃ stage, stageOf (own' i) = some stage) : Led g' own' fallen := by
  obtain ⟨stage, hstage⟩ := hstands
  cases hdealt with
  | free free =>
    have hsame : stageOf (own' i) = stageOf (own i) := by
      rw [hself]
      cases x with
      | none => rw [Option.toList_none, List.append_nil]
      | some y =>
        rw [Option.toList_some, stageOf_snoc]
        cases stageOf (own i) with
        | none => rfl
        | some stage => exact Stage.next_free (free y rfl)
    refine h.of_passes (.refl h.orderly) (fun p hp => hp) hself hothers (fun place hx => ?_)
      (fun place hlead => ?_) fun place hlead => ?_
    · cases free _ hx
    · exact h.leads i place hup (hsame ▸ hlead)
    · rw [hsame]
      exact h.led i place hup hlead
  | waits key =>
    have hsame : own' i = own i := hself.trans (List.append_nil _)
    refine h.of_passes (.join h.orderly key) (fun p hp => hp.join i key) hself hothers (by simp)
      (fun place hlead => ?_) fun place hlead => ?_
    · obtain ⟨c, hc⟩ := h.leads i place hup (hsame ▸ hlead)
      rw [h.orderly.join_of_seated hc.seated]
      exact ⟨c, hc⟩
    · rw [hsame]
      exact (h.led i place hup hlead).imp id fun hp => hp.join i key
  | leads turn seat => exact h.begins turn seat hself hothers hstage
  | @receives key outcome =>
    have hnow := hstage
    rw [hself, Option.toList_some, stageOf_snoc] at hnow
    obtain ⟨houtside, rfl⟩ := stage_of_receive hnow
    have hjoin : Flight.Group.Passes i g (g.join i key) := .join h.orderly key
    refine h.of_passes (hjoin.trans (.leave hjoin.orderly))
      (fun p hp => (hp.join i key).leave i) hself hothers (by simp) (fun place hlead => ?_)
      fun place hlead => ?_
    · cases hstage.symm.trans hlead
    · exact absurd houtside (not_outside_of_lead hlead)
  | lands outcome =>
    have hnow := hstage
    rw [hself, Option.toList_some, stageOf_snoc] at hnow
    obtain ⟨⟨place, hleading⟩, rfl⟩ := stage_of_land hnow
    have hleads := h.leads i place hup hleading
    refine h.of_passes (.land h.orderly hleads.runs outcome) (fun p hp => hp.land i outcome) hself
      hothers (by simp) (fun q hlead => ?_) fun q hlead => ?_
    · cases hstage.symm.trans hlead
    · rcases h.led i q hup hlead with hq | hq
      · obtain rfl := Stage.leading.inj (Option.some.inj (hleading.symm.trans hq))
        exact .inr (hleads.land h.orderly outcome)
      · exact .inr (hq.land i outcome)

end Led

end Effort

end LayeredCache
