import LayeredCache.Cache.Tasks
import LayeredCache.Proofs.Cache.Phases
import LayeredCache.Proofs.Flight.Passing

/-!
# Polling a caller of a shared load

A caller of a shared load is in one of three places when it is polled: it has not begun, it waits
for another caller's run, or it waits for its own loader. From each of them it goes on in one of
five ways, and what it does to the key and to the other callers is said here for all of them at
once.

## Main definitions

* `Setup.joinRun`, `Setup.loadRest` — what is left of a shared load while it waits.
* `Prog.Visits` — a caller that is polled does certain deeds and comes to a certain progress.
* `Setup.Turned` — what a poll of a caller of a shared load comes to.

## Main results

* `Setup.once_turned`, `Setup.joinRun_turned`, `Setup.loadRest_turned` — the three kinds of polls.
-/

set_option autoImplicit false

namespace LayeredCache

open Far Flight

/-! ## What is left of a shared load -/

namespace Setup

variable {ρ : Type}

/-- The end of a caller's own run. -/
def landing (ty : Ty) (outcome : Outcome) : Prog (Except Failure (Option Value)) :=
  .land outcome (.done (receive ty outcome))

/-- What is left of a shared load whose first look-up gave nothing. -/
def joinRun (s : Setup) (ty : Ty) (item : Item ρ) : Prog (Except Failure (Option Value)) :=
  .join item.key fun
    | some outcome => .done (receive ty outcome)
    | none => (s.flight ty item).bind (landing ty)

/-- What is left of a shared load while its loader runs. -/
def loadRest (s : Setup) (ty : Ty) (item : Item ρ) : Prog (Except Failure (Option Value)) :=
  .awaitLoad fun answer => (s.afterLoad ty item answer).bind (landing ty)

/-- What a shared load does with what its first look-up gave. -/
def afterFirst (s : Setup) (ty : Ty) (item : Item ρ) :
    Except Failure (Option Value) → Prog (Except Failure (Option Value))
  | .ok v => .done (.ok v)
  | .error f => if f.isMissing || f.isCorruption then s.joinRun ty item else .done (.error f)

/-- A shared load starts with a look-up. -/
lemma once_eq (s : Setup) (ty : Ty) (item : Item ρ) :
    s.once ty item = (s.lookup ty item.key item.options).bind (s.afterFirst ty item) := rfl

end Setup

/-! ## Polls -/

/-- A caller that is polled does certain deeds and comes to a certain progress. -/
structure Prog.Visits {α : Type} (visit : Visit) (p : Prog α) (c : Cache MemoryStore)
    (ds : List Deed) (r : Progress α) (c' : Cache MemoryStore) : Prop where
  progress : p.visit visit c = (r, c')
  deeds : p.deeds visit c = ds

namespace Prog.Does

variable {α : Type} {visit : Visit} {p : Prog α} {c c' : Cache MemoryStore} {ds : List Deed}

/-- A poll that ends. -/
lemma visits_finished {a : α} (h : Does visit p c ds (.finished a) c') :
    p.Visits visit c ds (.finished a) c' :=
  ⟨by simp only [Prog.visit, h.run], h.deeds⟩

/-- A poll after which the caller waits. -/
lemma visits_blocked {rest : Prog α} (h : Does visit p c ds (.blocked rest) c') :
    p.Visits visit c ds (.blocked rest) c' :=
  ⟨by simp only [Prog.visit, h.run], h.deeds⟩

/-- A poll that crashes takes the caller out of its call. -/
lemma visits_crashed (h : Does visit p c ds .crashed c') :
    p.Visits visit c ds .crashed { c' with flights := c'.flights.leave visit.caller } :=
  ⟨by simp only [Prog.visit, h.run], h.deeds⟩

/-- A poll that begins with a program that ends. -/
lemma bind_visits {β : Type} {f : α → Prog β} {a : α} {ds' : List Deed} {r : Progress β}
    {c'' : Cache MemoryStore} (h : Does visit p c ds (.finished a) c')
    (h' : (f a).Visits visit c' ds' r c'') : (p.bind f).Visits visit c (ds ++ ds') r c'' where
  progress := by
    rw [← h'.progress, Prog.visit, Prog.visit, run_bind, h.run, resume]
  deeds := by
    rw [deeds_bind, h.run, h.deeds]
    exact congrArg (ds ++ ·) h'.deeds

end Prog.Does

/-- **A poll** of a caller whose program avoids a key spares it. -/
lemma Prog.Avoids.visits {α : Type} {key : String} {p : Prog α} {c : Cache MemoryStore}
    (hp : p.Avoids key) (visit : Visit) (hc : c.Sound) (hf : c.flights.Orderly)
    (hown : ∀ q k o, c.flights.Sits visit.caller q k o → k ≠ key)
    (hpoised : p.Poised visit.caller c.flights) :
    ∃ ds r c', p.Visits visit c ds r c' ∧ c.Spared key visit.caller c' ∧
      (∀ d ∈ ds, d.Leaves key) ∧
      ∀ rest, r = .blocked rest → rest.Avoids key ∧ rest.Poised visit.caller c'.flights := by
  obtain ⟨hspared, hleaves, hrest⟩ := hp.sparing hc hf hown hpoised
  cases hrun : p.run visit c with
  | mk r c' =>
    have hdoes : p.Does visit c (p.deeds visit c) r c' := ⟨hrun, rfl⟩
    rw [hrun] at hspared hrest
    cases r with
    | finished a => exact ⟨_, _, c', hdoes.visits_finished, hspared, hleaves, by simp⟩
    | blocked rest => exact ⟨_, _, c', hdoes.visits_blocked, hspared, hleaves, hrest⟩
    | crashed =>
      have hleave : Flight.Group.Spares key visit.caller c'.flights
          (c'.flights.leave visit.caller) :=
        .leave hspared.flights.orderly (hspared.flights.own hown)
      exact ⟨_, _, _, hdoes.visits_crashed, hspared.trans (.of_flights hspared.sound hleave),
        hleaves, by simp⟩

/-! ## Callers of one key -/

namespace Flight.Group

variable {τ : Type} {g g' : Group τ} {i w : Caller} {key : String} {q : Nat}

/-- A caller without a seat sits nowhere. -/
lemma Orderly.seat_eq_none_iff (h : g.Orderly) :
    g.seat? i = none ↔ ∀ q k output, ¬ g.Sits i q k output := by
  constructor
  · rintro hs q k output ⟨c, hc, -⟩
    exact h.not_seated hs hc
  · intro hnone
    cases hs : g.seat? i with
    | none => rfl
    | some p =>
      obtain ⟨c, hc⟩ := seated_of_seat hs
      exact absurd ⟨c, hc, rfl, rfl⟩ (hnone p c.key c.output)

/-- A caller that sits in calls of a key only. -/
def Keyed (g : Group τ) (i : Caller) (key : String) : Prop :=
  ∀ q k output, g.Sits i q k output → k = key

/-- No other caller than `i` runs a call of a key. -/
def Alone (g : Group τ) (i : Caller) (key : String) : Prop :=
  ∀ w, w ≠ i → ∀ q, g.Sits w q key none → ¬ g.Runs w

/-- A caller that runs a call of a key is alone. -/
lemma Orderly.alone_of_runs (h : g.Orderly) (hi : g.Runs i) (hkey : g.Keyed i key) :
    g.Alone i key := by
  rintro w hw q ⟨c, hc, hk, hout⟩ ⟨q', d, hd⟩
  obtain ⟨rfl, rfl⟩ := h.seated_unique hc hd.seated
  obtain ⟨p, e, he⟩ := hi
  refine hw (h.conductor_unique hd he ?_)
  rw [hk, hkey p e.key none ⟨e, he.seated, rfl, he.2.2.2⟩]

/-- A caller that has left sits nowhere. -/
lemma Orderly.seat_leave (h : g.Orderly) (i : Caller) : (g.leave i).seat? i = none := by
  rw [(h.orderly_leave i).seat_eq_none_iff]
  exact fun q k output hs => (h.sits_leave.mp hs).1 rfl

/-- A caller that has landed sits nowhere. -/
lemma Orderly.seat_land (h : g.Orderly) (hi : g.Runs i) (v : τ) :
    (g.land i v).seat? i = none := by
  obtain ⟨p, k, hs⟩ := sits_of_runs hi
  rw [(Passes.land h hi v).orderly.seat_eq_none_iff]
  exact fun q k' output hs' => ((h.sits_land hs v).mp hs').1 rfl

/-- A caller without a seat sits in calls of no key. -/
lemma Orderly.keyed_of_seat (h : g.Orderly) (hi : g.seat? i = none) (key : String) :
    g.Keyed i key :=
  fun q k output hs => absurd hs (h.seat_eq_none_iff.mp hi q k output)

/-- The callers that wait for a run of a key get what it gives. -/
lemma Orderly.heirs_land (h : g.Orderly) (hi : g.Runs i) (hkey : g.Keyed i key) (v : τ)
    (hw : w ≠ i) (hs : g.Sits w q key none) : (g.land i v).Sits w q key (some v) := by
  obtain ⟨p, k, hp⟩ := sits_of_runs hi
  obtain rfl := hkey p k none hp
  obtain rfl := h.sits_together hs hp
  rw [h.sits_land hp v, if_pos rfl]
  exact ⟨hw, hs, rfl⟩

end Flight.Group

/-! ## What a poll comes to -/

namespace Setup

open Cache

variable {ρ : Type} {s : Setup} {ty : Ty} {item : Item ρ} {key : String} {visit : Visit}
  {ph ph' : Phase} {c c₁ c' : Cache MemoryStore} {past ds : List Deed}
  {r : Progress (Except Failure (Option Value))}

/-- The caller has begun its loader, in this poll or in an earlier one. -/
def Began (i : Caller) (c c' : Cache MemoryStore) : Prop :=
  (i ∉ c.started ∧ c'.started = c.started ++ [i]) ∨ (i ∈ c.started ∧ c'.started = c.started)

/-- The caller has not begun its loader. -/
def Idle (i : Caller) (c c' : Cache MemoryStore) : Prop :=
  i ∉ c.started ∧ c'.started = c.started

/-- How a poll of the caller `i` in the phase `ph` ends. -/
inductive Ends (s : Setup) (ty : Ty) (item : Item ρ) (key : String) (visit : Visit) (ph : Phase)
    (c c' : Cache MemoryStore) (past : List Deed) :
    Progress (Except Failure (Option Value)) → Prop where
  /-- It waits for another caller's run. -/
  | waiting (ph' : Phase) (hstored : ph = .stored → ph' = .stored)
      (habsent : ph = .absent → ph' = .absent) (h : In key ty c' past ph')
      (hidle : Idle visit.caller c c') (hruns : ¬ c'.flights.Runs visit.caller) :
      Ends s ty item key visit ph c c' past (.blocked (s.joinRun ty item))
  /-- It is done without having begun its loader. -/
  | done (ph' : Phase) (hstored : ph = .stored → ph' = .stored)
      (habsent : ph = .absent → ph' = .absent ∨ c.flights.Alone visit.caller key)
      (h : In key ty c' past ph') (hidle : Idle visit.caller c c')
      (hseat : c'.flights.seat? visit.caller = none)
      (r : Progress (Except Failure (Option Value))) (hr : ∀ rest, r ≠ .blocked rest) :
      Ends s ty item key visit ph c c' past r
  /-- It waits for its loader. -/
  | loading (hph : ph ≠ .stored) (halone : c.flights.Alone visit.caller key)
      (hloaded : visit.loaded = none) (h : Absent key c' past) (hbegan : Began visit.caller c c')
      (hruns : c'.flights.Runs visit.caller) :
      Ends s ty item key visit ph c c' past (.blocked (s.loadRest ty item))
  /-- Its loader has given a value, which was stored and goes to all that wait for the run. -/
  | loaded (v : Value) (data : Bytes) (hph : ph ≠ .stored)
      (halone : c.flights.Alone visit.caller key) (hloaded : visit.loaded = some (.ok v))
      (hv : s.envelope.Keeps ty v data) (h : Stored key ty c' past)
      (hbegan : Began visit.caller c c') (hseat : c'.flights.seat? visit.caller = none)
      (hheirs : ∀ w, w ≠ visit.caller → ∀ q, c.flights.Sits w q key none →
        c'.flights.Sits w q key (some (.ok data))) :
      Ends s ty item key visit ph c c' past (.finished (receive ty (.ok data)))
  /-- It crashed after its loader was started. -/
  | failed (ph' : Phase) (hph : ph ≠ .stored) (halone : c.flights.Alone visit.caller key)
      (h : In key ty c' past ph') (hbegan : Began visit.caller c c')
      (hseat : c'.flights.seat? visit.caller = none) :
      Ends s ty item key visit ph c c' past .crashed

/-- What a poll of a caller of a shared load comes to. -/
structure Turned (s : Setup) (ty : Ty) (item : Item ρ) (key : String) (visit : Visit) (ph : Phase)
    (c c' : Cache MemoryStore) (past : List Deed) (r : Progress (Except Failure (Option Value))) :
    Prop where
  sound : c'.Sound
  setup : c'.setup = c.setup
  ttl : c'.near.map NearTier.defaultTtl = c.near.map NearTier.defaultTtl
  passes : Flight.Group.Passes visit.caller c.flights c'.flights
  keyed : c'.flights.Keyed visit.caller key
  /-- A caller that sits in a complete call receives its output. -/
  heir : ∀ q outcome, c.flights.Sits visit.caller q key (some outcome) →
    r = .finished (receive ty outcome)
  crashed : r = .crashed → ¬ c.Affords visit.now item.options.lifetime
  ends : Ends s ty item key visit ph c c' past r

/-- A poll of which a first part has led from `c` to `c₁` and from the phase `ph` to `ph'`. -/
lemma Turned.of_step (hsetup : c₁.setup = c.setup)
    (httl : c₁.near.map NearTier.defaultTtl = c.near.map NearTier.defaultTtl)
    (hstarted : c₁.started = c.started)
    (hpasses : Flight.Group.Passes visit.caller c.flights c₁.flights)
    (hopen : ∀ w, w ≠ visit.caller → ∀ q, c.flights.Sits w q key none →
      c₁.flights.Sits w q key none)
    (hheir : ∀ q outcome, c.flights.Sits visit.caller q key (some outcome) →
      c₁.flights.Sits visit.caller q key (some outcome))
    (hstored : ph = .stored → ph' = .stored) (habsent : ph = .absent → ph' = .absent)
    (h : Turned s ty item key visit ph' c₁ c' past r) :
    Turned s ty item key visit ph c c' past r where
  sound := h.sound
  setup := h.setup.trans hsetup
  ttl := h.ttl.trans httl
  passes := hpasses.trans h.passes
  keyed := h.keyed
  heir q outcome hs := h.heir q outcome (hheir q outcome hs)
  crashed hr hc := h.crashed hr ((affords_congr httl).mpr hc)
  ends := by
    have hidle : Idle visit.caller c₁ c' → Idle visit.caller c c' := by
      unfold Idle
      rw [hstarted]
      exact id
    have hbegan : Began visit.caller c₁ c' → Began visit.caller c c' := by
      unfold Began
      rw [hstarted]
      exact id
    have halone : c₁.flights.Alone visit.caller key → c.flights.Alone visit.caller key :=
      fun halone w hw q hs hruns =>
        halone w hw q (hopen w hw q hs) ((hpasses.runs w hw).mpr hruns)
    have hne : ph' ≠ .stored → ph ≠ .stored := fun hne heq => hne (hstored heq)
    cases h.ends with
    | waiting ph'' hstored' habsent' hin hidle' hruns =>
      exact .waiting ph'' (fun heq => hstored' (hstored heq)) (fun heq => habsent' (habsent heq))
        hin (hidle hidle') hruns
    | done ph'' hstored' habsent' hin hidle' hseat _ hr =>
      exact .done ph'' (fun heq => hstored' (hstored heq))
        (fun heq => (habsent' (habsent heq)).imp id halone) hin (hidle hidle') hseat r hr
    | loading hph halone' hloaded hin hbegan' hruns =>
      exact .loading (hne hph) (halone halone') hloaded hin (hbegan hbegan') hruns
    | loaded v data hph halone' hloaded hv hin hbegan' hseat hheirs =>
      exact .loaded v data (hne hph) (halone halone') hloaded hv hin (hbegan hbegan') hseat
        fun w hw q hs => hheirs w hw q (hopen w hw q hs)
    | failed ph'' hph halone' hin hbegan' hseat =>
      exact .failed ph'' (hne hph) (halone halone') hin (hbegan hbegan') hseat

/-- **Polling a caller whose loader was started**: it waits on, or ends its run. -/
theorem loadRest_turned (visit : Visit) (hty : ty ≠ .scalar .literal) (hc : c.Sound)
    (hs : c.setup = s) (hfar : s.far = true) (hitem : item.Plain s.envelope ty key)
    (hloaded : ∀ answer, visit.loaded = some answer →
      ∃ v data, answer = .ok v ∧ s.envelope.Keeps ty v data)
    (hf : c.flights.Orderly) (hkeyed : c.flights.Keyed visit.caller key)
    (hruns : c.flights.Runs visit.caller) (hstarted : visit.caller ∈ c.started)
    (hph : In key ty c past ph) (habsent : ph = .absent) :
    ∃ ds r c', (s.loadRest ty item).Visits visit c ds r c' ∧
      Turned s ty item key visit ph c c' (past ++ ds) r := by
  subst habsent
  have halone := hf.alone_of_runs hruns hkeyed
  have hheir : ∀ q outcome, ¬ c.flights.Sits visit.caller q key (some outcome) :=
    fun q outcome => hf.not_sits_of_runs hruns outcome
  cases hanswer : visit.loaded with
  | none =>
    refine ⟨[], _, c, (Prog.Does.awaitLoad_blocked hanswer).visits_blocked, hc, rfl, rfl, .refl hf,
      hkeyed, fun q outcome hsits => absurd hsits (hheir q outcome), by simp, ?_⟩
    rw [List.append_nil]
    exact .loading (by simp) halone hanswer hph (.inr ⟨hstarted, rfl⟩) hruns
  | some answer =>
    obtain ⟨v, data, rfl, hv⟩ := hloaded answer hanswer
    rcases storeProduced_phase visit hty hc hs hfar hitem hv hph with
      ⟨ds, c₁, hdoes, hkept, hstored⟩ | ⟨hdoes, hafford⟩
    · let c' : Cache MemoryStore :=
        { c₁ with flights := c₁.flights.land visit.caller (.ok data) }
      have hflights : c'.flights = c.flights.land visit.caller (.ok data) := by
        rw [← hkept.flights]
      have hland : Flight.Group.Passes visit.caller c.flights c'.flights := by
        rw [hflights]
        exact .land hf hruns (.ok data)
      have hseat : c'.flights.seat? visit.caller = none := by
        rw [hflights]
        exact hf.seat_land hruns (.ok data)
      refine ⟨ds ++ [], _, c',
        (Prog.Does.awaitLoad hanswer (hdoes.bind (.land .done))).visits_finished, hkept.sound,
        hkept.setup, hkept.ttl, hland, hland.orderly.keyed_of_seat hseat key,
        fun q outcome hsits => absurd hsits (hheir q outcome), by simp, ?_⟩
      rw [List.append_nil]
      refine .loaded v data (by simp) halone hanswer hv (hstored.of_same rfl rfl)
        (.inr ⟨hstarted, hkept.started⟩) hseat fun w hw q hsits => ?_
      rw [hflights]
      exact hf.heirs_land hruns hkeyed (.ok data) hw hsits
    · have hseat := hf.seat_leave visit.caller
      refine ⟨[], _, _,
        (Prog.Does.awaitLoad hanswer hdoes.bind_crashed).visits_crashed, hc, rfl, rfl,
        .leave hf, (hf.orderly_leave visit.caller).keyed_of_seat hseat key,
        fun q outcome hsits => absurd hsits (hheir q outcome), fun _ => hafford, ?_⟩
      rw [List.append_nil]
      exact .failed .absent (by simp) halone (Absent.of_same hph rfl rfl)
        (.inr ⟨hstarted, rfl⟩) hseat

/-- **The own run** of a caller that has just begun it. -/
lemma ownRun_turned (visit : Visit) (hty : ty ≠ .scalar .literal) (hc : c.Sound) (hs : c.setup = s)
    (hfar : s.far = true) (hitem : item.Plain s.envelope ty key)
    (hloaded : ∀ answer, visit.loaded = some answer →
      ∃ v data, answer = .ok v ∧ s.envelope.Keeps ty v data)
    (hf : c.flights.Orderly) (hkeyed : c.flights.Keyed visit.caller key)
    (hruns : c.flights.Runs visit.caller) (hstarted : visit.caller ∉ c.started)
    (hph : In key ty c past ph) :
    ∃ ds r c', ((s.flight ty item).bind (landing ty)).Visits visit c ds r c' ∧
      Turned s ty item key visit ph c c' (past ++ ds) r := by
  obtain ⟨ds, r, c₁, hflight, hframed, hflown⟩ :=
    flight_phase visit hty hc hs hfar hitem hloaded hph
  have halone := hf.alone_of_runs hruns hkeyed
  have hheir : ∀ q outcome, ¬ c.flights.Sits visit.caller q key (some outcome) :=
    fun q outcome => hf.not_sits_of_runs hruns outcome
  -- what landing and leaving do to the calls
  have hland : ∀ outcome,
      Flight.Group.Passes visit.caller c.flights (c₁.flights.land visit.caller outcome) ∧
        (c₁.flights.land visit.caller outcome).seat? visit.caller = none := by
    intro outcome
    rw [hframed.flights]
    exact ⟨.land hf hruns outcome, hf.seat_land hruns outcome⟩
  have hleave : Flight.Group.Passes visit.caller c.flights (c₁.flights.leave visit.caller) ∧
      (c₁.flights.leave visit.caller).seat? visit.caller = none := by
    rw [hframed.flights]
    exact ⟨.leave hf, hf.seat_leave visit.caller⟩
  cases hflown with
  | unloaded outcome ph' hstored hin hsame =>
    obtain ⟨hpasses, hseat⟩ := hland outcome
    have hin' : In key ty { c₁ with flights := c₁.flights.land visit.caller outcome }
        (past ++ ds) ph' := hin.of_same rfl rfl
    refine ⟨ds ++ [], _, { c₁ with flights := c₁.flights.land visit.caller outcome },
      (hflight.bind (.land .done)).visits_finished, hframed.sound, hframed.setup, hframed.ttl,
      hpasses, hpasses.orderly.keyed_of_seat hseat key,
      fun q outcome' hsits => absurd hsits (hheir q outcome'), by simp, ?_⟩
    rw [List.append_nil]
    exact .done ph' hstored (fun _ => .inr halone) hin' ⟨hstarted, hsame⟩ hseat _ (by simp)
  | loaded v data hne hanswer hv hin hsame =>
    obtain ⟨hpasses, hseat⟩ := hland (.ok data)
    refine ⟨ds ++ [], _, { c₁ with flights := c₁.flights.land visit.caller (.ok data) },
      (hflight.bind (.land .done)).visits_finished, hframed.sound, hframed.setup, hframed.ttl,
      hpasses, hpasses.orderly.keyed_of_seat hseat key,
      fun q outcome' hsits => absurd hsits (hheir q outcome'), by simp, ?_⟩
    rw [List.append_nil]
    refine .loaded v data hne halone hanswer hv (hin.of_same rfl rfl)
      (.inl ⟨hstarted, hsame⟩) hseat fun w hw q hsits => ?_
    show (c₁.flights.land visit.caller (.ok data)).Sits w q key (some (.ok data))
    rw [hframed.flights]
    exact hf.heirs_land hruns hkeyed (.ok data) hw hsits
  | loading hne hanswer hin hsame =>
    have hpasses : Flight.Group.Passes visit.caller c.flights c₁.flights := by
      rw [hframed.flights]
      exact .refl hf
    refine ⟨ds, _, c₁, hflight.bind_blocked.visits_blocked, hframed.sound, hframed.setup,
      hframed.ttl, hpasses, by rw [hframed.flights]; exact hkeyed,
      fun q outcome' hsits => absurd hsits (hheir q outcome'), by simp, ?_⟩
    refine .loading hne halone hanswer hin (.inl ⟨hstarted, hsame⟩) ?_
    rw [hframed.flights]
    exact hruns
  | crashed ph' hstored hin hsame hafford =>
    obtain ⟨hpasses, hseat⟩ := hleave
    have hin' : In key ty { c₁ with flights := c₁.flights.leave visit.caller } (past ++ ds) ph' :=
      hin.of_same rfl rfl
    refine ⟨ds, _, { c₁ with flights := c₁.flights.leave visit.caller },
      hflight.bind_crashed.visits_crashed, hframed.sound, hframed.setup, hframed.ttl,
      hpasses, hpasses.orderly.keyed_of_seat hseat key,
      fun q outcome' hsits => absurd hsits (hheir q outcome'), fun _ => hafford, ?_⟩
    rcases hsame with hsame | hsame
    · exact .done ph' (fun heq => (hstored heq).1) (fun _ => .inr halone) hin' ⟨hstarted, hsame⟩
        hseat _ (by simp)
    · refine .failed ph' (fun heq => ?_) halone hin' (.inl ⟨hstarted, hsame⟩) hseat
      -- in the last phase no loader is started
      have hlength := congrArg List.length (hsame.symm.trans (hstored heq).2)
      simp at hlength

/-- **Polling a caller that joins**: it receives what another caller's run gave, waits for it, or
runs itself. -/
theorem joinRun_turned (visit : Visit) (hty : ty ≠ .scalar .literal) (hc : c.Sound)
    (hs : c.setup = s) (hfar : s.far = true) (hitem : item.Plain s.envelope ty key)
    (hloaded : ∀ answer, visit.loaded = some answer →
      ∃ v data, answer = .ok v ∧ s.envelope.Keeps ty v data)
    (hf : c.flights.Orderly) (hkeyed : c.flights.Keyed visit.caller key)
    (hruns : ¬ c.flights.Runs visit.caller) (hstarted : visit.caller ∉ c.started)
    (hph : In key ty c past ph) :
    ∃ ds r c', (s.joinRun ty item).Visits visit c ds r c' ∧
      Turned s ty item key visit ph c c' (past ++ ds) r := by
  obtain rfl := hitem.key
  have hjoin := Flight.Group.Passes.join (i := visit.caller) hf item.key
  obtain ⟨hothers, p, output, hi, hcase⟩ := hf.sits_join hkeyed
  have hkeyed₁ : (c.flights.join visit.caller item.key).Keyed visit.caller item.key :=
    fun q k o hsits => ((hjoin.orderly.sits_unique hi hsits).2.1).symm
  -- a caller that sits in a complete call stays there
  have hstays : ∀ q outcome, c.flights.Sits visit.caller q item.key (some outcome) →
      (c.flights.join visit.caller item.key).Sits visit.caller q item.key (some outcome) := by
    rintro q outcome ⟨d, hd, hrest⟩
    rw [hf.join_of_seated hd]
    exact ⟨d, hd, hrest⟩
  have hheir : ∀ q outcome, c.flights.Sits visit.caller q item.key (some outcome) →
      output = some outcome :=
    fun q outcome hsits => (hjoin.orderly.sits_unique hi (hstays q outcome hsits)).2.2
  rcases hjoin.orderly.turn_cases hi with
    ⟨v, rfl, hturn⟩ | ⟨rfl, hturn, hnot⟩ |
      ⟨rfl, d, hd, hhead, hk, hout, ⟨-, hrunning⟩ | ⟨hturn, -⟩⟩
  · -- the call is complete
    let c₂ : Cache MemoryStore :=
      { c with flights := (c.flights.join visit.caller item.key).leave visit.caller }
    have hseat : c₂.flights.seat? visit.caller = none := hjoin.orderly.seat_leave visit.caller
    have hpasses : Flight.Group.Passes visit.caller c.flights c₂.flights :=
      hjoin.trans (.leave hjoin.orderly)
    have hdoes : Prog.Does visit (s.joinRun ty item) c [] (.finished (receive ty v)) c₂ :=
      .join_collect hturn .done
    refine ⟨[], _, c₂, hdoes.visits_finished, hc, rfl, rfl, hpasses,
      hpasses.orderly.keyed_of_seat hseat item.key, fun q outcome hsits => ?_, by simp, ?_⟩
    · obtain rfl := Option.some.inj (hheir q outcome hsits)
      rfl
    · rw [List.append_nil]
      have hin : In item.key ty c₂ past ph := hph.of_same rfl rfl
      exact .done ph id .inl hin ⟨hstarted, rfl⟩ hseat _ (by simp)
  · -- another caller is to run
    refine ⟨[], _, _, (Prog.Does.join_wait hturn).visits_blocked, hc, rfl, rfl, hjoin, hkeyed₁,
      fun q outcome hsits => ?_, by simp, ?_⟩
    · cases hheir q outcome hsits
    · rw [List.append_nil]
      exact .waiting ph id id (hph.of_same rfl rfl) ⟨hstarted, rfl⟩ hnot
  · exact absurd (hf.runs_join.mp hrunning) hruns
  · -- it runs itself
    let c₂ : Cache MemoryStore :=
      { c with flights := (c.flights.join visit.caller item.key).start visit.caller }
    have hstart : Flight.Group.Passes visit.caller (c.flights.join visit.caller item.key)
        c₂.flights := .start hjoin.orderly hd hhead hout
    have hsits : ∀ w q k o, c₂.flights.Sits w q k o ↔
        (c.flights.join visit.caller item.key).Sits w q k o :=
      fun w q k o => hjoin.orderly.sits_start hd hhead
    have hruns₂ : c₂.flights.Runs visit.caller :=
      (hjoin.orderly.runs_start hd hhead hout).mpr (.inr rfl)
    obtain ⟨ds, r, c', hvisits, hturned⟩ := ownRun_turned visit (c := c₂) hty hc hs hfar
      hitem hloaded hstart.orderly (fun q k o h => hkeyed₁ q k o ((hsits _ q k o).mp h)) hruns₂
      hstarted (hph.of_same rfl rfl)
    refine ⟨ds, r, c', ⟨?_, ?_⟩, ?_⟩
    · rw [← hvisits.progress, joinRun, Prog.visit, Prog.visit, Prog.run, hturn]
    · rw [← hvisits.deeds, joinRun, Prog.deeds, hturn]
    · have hsetup : c₂.setup = c.setup := rfl
      refine Turned.of_step hsetup rfl rfl (hjoin.trans hstart) (fun w hw q h => ?_)
        (fun q o h => ?_) id id hturned
      · exact (hsits w q item.key none).mpr ((hothers w hw q item.key none).mpr h)
      · exact (hsits _ q item.key (some o)).mpr (hstays q o h)

/-- **Polling a caller that has not begun**: it reads a value, or goes on as a caller that joins. -/
theorem once_turned (visit : Visit) (hty : ty ≠ .scalar .literal) (hc : c.Sound) (hs : c.setup = s)
    (hfar : s.far = true) (hitem : item.Plain s.envelope ty key)
    (hloaded : ∀ answer, visit.loaded = some answer →
      ∃ v data, answer = .ok v ∧ s.envelope.Keeps ty v data)
    (hf : c.flights.Orderly) (hseat : c.flights.seat? visit.caller = none)
    (hstarted : visit.caller ∉ c.started) (hph : In key ty c past ph) :
    ∃ ds r c', (s.once ty item).Visits visit c ds r c' ∧
      Turned s ty item key visit ph c c' (past ++ ds) r := by
  have htier : s.hasTier = true := by rw [hasTier, hfar, Bool.or_true]
  obtain rfl := hitem.key
  have hnone := hf.seat_eq_none_iff.mp hseat
  rw [once_eq]
  obtain ⟨ds, r, c₁, hlookup, hkept, hlooked, hafford⟩ :=
    lookup_phase visit item.key hc hs htier hitem.skip hph
  have hs₁ : c₁.setup = s := hkept.setup.trans hs
  have hf₁ : c₁.flights.Orderly := hkept.flights ▸ hf
  have hseat₁ : c₁.flights.seat? visit.caller = none := hkept.flights ▸ hseat
  have hstarted₁ : visit.caller ∉ c₁.started := hkept.started ▸ hstarted
  have hruns₁ : ¬ c₁.flights.Runs visit.caller :=
    Flight.Group.Orderly.not_runs_of_not_sits fun p k => hf₁.seat_eq_none_iff.mp hseat₁ p k none
  have hpasses : Flight.Group.Passes visit.caller c.flights c₁.flights := by
    rw [hkept.flights]
    exact .refl hf
  -- a look-up that found nothing to read is followed by joining
  have hjoined : ∀ (f : Failure) (ph' : Phase), (f.isMissing || f.isCorruption) = true →
      Prog.Does visit (s.lookup ty item.key item.options) c ds (.finished (.error f)) c₁ →
      (ph = .stored → ph' = .stored) → (ph = .absent → ph' = .absent) →
      In item.key ty c₁ (past ++ ds) ph' →
      ∃ ds' r c', ((s.lookup ty item.key item.options).bind (s.afterFirst ty item)).Visits visit c
        ds' r c' ∧ Turned s ty item item.key visit ph c c' (past ++ ds') r := by
    intro f ph' hf' hlookup hstored habsent hin
    obtain ⟨ds', r', c', hvisits, hturned⟩ := joinRun_turned visit hty hkept.sound hs₁
      hfar hitem hloaded hf₁ (hf₁.keyed_of_seat hseat₁ item.key) hruns₁ hstarted₁ hin
    have hafter : s.afterFirst ty item (.error f) = s.joinRun ty item := if_pos hf'
    refine ⟨ds ++ ds', r', c', hlookup.bind_visits (by rw [hafter]; exact hvisits), ?_⟩
    rw [← List.append_assoc]
    refine hturned.of_step hkept.setup hkept.ttl hkept.started hpasses (fun w _ q h => ?_)
      (fun q o h => absurd h (hnone q item.key (some o))) hstored habsent
    rw [hkept.flights]
    exact h
  cases hlooked with
  | read v hin =>
    have hdoes := hlookup.bind (f := s.afterFirst ty item) .done
    refine ⟨ds ++ [], _, c₁, hdoes.visits_finished, hkept.sound, hkept.setup,
      hkept.ttl, hpasses, hf₁.keyed_of_seat hseat₁ item.key,
      fun q o h => absurd h (hnone q item.key (some o)), by simp, ?_⟩
    rw [List.append_nil]
    exact .done ph id .inl hin ⟨hstarted, hkept.started⟩ hseat₁ _ (by simp)
  | missing hne hin =>
    exact hjoined .missing .absent rfl hlookup (fun heq => absurd heq hne) (fun _ => rfl) hin
  | spoilt f hspoilt huntouched hin =>
    refine hjoined f .untouched (by simp [hspoilt.1]) hlookup (fun heq => ?_) (fun heq => ?_) hin
    · cases huntouched.symm.trans heq
    · cases huntouched.symm.trans heq
  | crashed hin =>
    let c₂ : Cache MemoryStore := { c₁ with flights := c₁.flights.leave visit.caller }
    have hseat₂ : c₂.flights.seat? visit.caller = none := hf₁.seat_leave visit.caller
    refine ⟨ds, _, c₂, hlookup.bind_crashed.visits_crashed, hkept.sound, hkept.setup, hkept.ttl,
      hpasses.trans (.leave hf₁), (hf₁.orderly_leave _).keyed_of_seat hseat₂ item.key,
      fun q o h => absurd h (hnone q item.key (some o)), fun _ => hafford rfl, ?_⟩
    have hin₂ : In item.key ty c₂ (past ++ ds) ph := hin.of_same rfl rfl
    exact .done ph id .inl hin₂ ⟨hstarted, hkept.started⟩ hseat₂ _ (by simp)

end Setup

end LayeredCache
