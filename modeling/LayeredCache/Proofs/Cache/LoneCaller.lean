import LayeredCache.Proofs.Cache.LookAgain
import LayeredCache.Proofs.Cache.ReadBack
import LayeredCache.Proofs.Cache.Taking
import LayeredCache.Proofs.Envelope
import LayeredCache.Proofs.Serial.Operations

/-!
# A caller that is alone

A caller that reads or computes may ask for a shared run. When nobody else uses the cache this
makes no difference to the tiers, to its loader, and to whether the call ends well. What it is
given may differ in two ways: a failure to make the value comes back as a shared one, and a value
that was made comes back as what its stored form is read as, which is nothing if the stored form is
empty.

## Main definitions

* `Prog.drive` — a program over the visits of its caller.
* `Setup.Matched` — how the two calls end, side by side.
* `Setup.SameOutcome` — what does not depend on whether a caller asks for a shared run.

## Main results

* `Setup.seek_alone` — looking for the value comes to the same.
* `Setup.make_alone` — making the value comes to the same.
* `Setup.lone_caller` — for a caller that is alone the outcome is the same.
-/

set_option autoImplicit false

namespace LayeredCache

open Far

namespace Prog

variable {α σ : Type} [FarStore σ]

/-- Runs a program over the visits of its caller: each time as far as it goes, and what is left then
waits for the next visit. -/
def drive : List Visit → Prog α → Cache σ → Progress α × Cache σ
  | [], p, c => (.blocked p, c)
  | v :: later, p, c =>
    match p.visit v c with
    | (.blocked rest, c) => rest.drive later c
    | r => r

variable {p q : Prog α} {c d c' : Cache σ} {visit : Visit}

/-- What a program comes to depends on its first visit and on what is left then. -/
lemma drive_congr (h : p.run visit c = q.run visit d) (later : List Visit) :
    p.drive (visit :: later) c = q.drive (visit :: later) d := by
  rw [drive, drive, visit_congr h]

/-- A program that ends at its first visit. -/
lemma drive_finished {a : α} (h : p.run visit c = (.finished a, c')) (later : List Visit) :
    p.drive (visit :: later) c = (.finished a, c') := by
  rw [drive, visit_eq_finished_iff.mpr h]

/-- A program that crashes at its first visit. -/
lemma drive_crashed (h : p.run visit c = (.crashed, c')) (later : List Visit) :
    p.drive (visit :: later) c =
      (.crashed, { c' with flights := c'.flights.leave visit.caller }) := by
  rw [drive, Prog.visit, h]

/-- **A program that waits for its loader** waits until a visit brings the answer, whatever it does
then. -/
lemma drive_awaitLoad (visits : List Visit) :
    (∀ (next : Except LoadFailure Value → Prog α) (c : Cache σ),
      (Prog.awaitLoad next).drive visits c = (.blocked (.awaitLoad next), c)) ∨
    ∃ visit ∈ visits, ∃ later answer, visit.loaded = some answer ∧
      ∀ (next : Except LoadFailure Value → Prog α) (c : Cache σ),
        (Prog.awaitLoad next).drive visits c = (next answer).drive (visit :: later) c := by
  induction visits with
  | nil => exact .inl fun _ _ => rfl
  | cons visit later ih =>
    cases hloaded : visit.loaded with
    | some answer =>
      refine .inr ⟨visit, List.mem_cons_self, later, answer, hloaded, fun next c => ?_⟩
      refine drive_congr ?_ later
      simp only [run, hloaded]
    | none =>
      have hwaits : ∀ (next : Except LoadFailure Value → Prog α) (c : Cache σ),
          (Prog.awaitLoad next).drive (visit :: later) c = (Prog.awaitLoad next).drive later c := by
        intro next c
        simp only [drive, Prog.visit, run, hloaded]
      refine ih.imp (fun h next c => (hwaits next c).trans (h next c)) ?_
      rintro ⟨visit', hmem, later', answer, hloaded', h⟩
      exact ⟨visit', List.mem_cons_of_mem _ hmem, later', answer, hloaded',
        fun next c => (hwaits next c).trans (h next c)⟩

end Prog

namespace Setup

variable {ρ : Type} {s : Setup} {ty : Ty} {item : Item ρ} {visit : Visit}
  {c c' : Cache MemoryStore}

/-! ## Looking for the value -/

/-- What looking for a value comes to for the two kinds of calls. -/
inductive SoughtAlike (key : String) :
    Progress (Option Reading) × Cache MemoryStore → Progress (Option Reading) × Cache MemoryStore →
      Prop where
  | answered (r : Reading) (c : Cache MemoryStore) :
      SoughtAlike key (.finished (some r), c) (.finished (some r), c)
  | missing {c c' : Cache MemoryStore} (twins : c.Twins key c') :
      SoughtAlike key (.finished none, c) (.finished none, c')
  | crashed (c : Cache MemoryStore) : SoughtAlike key (.crashed, c) (.crashed, c)

/-- What a caller that is alone finds in its shared run is what it has found before.

**Proof sketch.** It is to run itself. Its second look-up answers as the first one, since nothing is
left to be done and nobody has come in between. -/
lemma seekRun_alone {f : Failure} (hc : c.Sound) (hs : c.setup = s) (hv : c.flights.Vacant)
    (hsettled : s.Settled ty item.key item.options visit.now c (.error f)) :
    ∃ d, (s.seekRun ty item).run visit c =
        (((s.storedAfter ty item (.error f)).bind (landedUnless ty)).run visit d) ∧
      c.Twins item.key d := by
  -- the cache when the run begins
  let c₁ : Cache MemoryStore :=
    { c with flights := (c.flights.join visit.caller item.key).start visit.caller }
  have htwins : c.Twins item.key c₁ :=
    (Cache.Twins.refl hc).of_same rfl rfl rfl rfl rfl rfl rfl rfl
  have hstarts : (s.seekRun ty item).run visit c =
      ((s.seekStored ty item).bind (landedUnless ty)).run visit c₁ :=
    Prog.run_join_alone (hv.comesAlone visit.caller item.key)
  obtain ⟨d, hlook, hkept⟩ := hsettled.lookup hc hs
  have htogether := (lookup_onlyNames s ty item.key item.options).run_twins visit htwins
  rw [hlook] at htogether
  refine ⟨((s.lookup ty item.key item.options).run visit c₁).2, ?_,
    hkept.trans htogether.twins⟩
  rw [hstarts, seekStored, Prog.bind_assoc, Prog.run_bind]
  have hprogress : ((s.lookup ty item.key item.options).run visit c₁).1 = .finished (.error f) :=
    htogether.progress.symm
  rw [← Prod.mk.eta (p := (s.lookup ty item.key item.options).run visit c₁), hprogress]
  rfl

/-- A look-up that finds an entry that cannot be read has looked for it. -/
lemma Settled.looks {f : Failure} {now : Instant} {key : String} {o : CallOptions}
    (h : s.Settled ty key o now c (.error f)) (hcorrupt : f.isCorruption = true) :
    s.hasTier = true ∧ o.skip.covers .all = false := by
  have hcase : ∀ {r : Reading}, s.Settled ty key o now c r → r = .error f →
      s.hasTier = true ∧ o.skip.covers .all = false := by
    intro r hr heq
    cases hr with
    | skipped => cases heq; cases hcorrupt
    | tierless => cases heq; cases hcorrupt
    | near uses => exact hasTier_of_uses (.inl uses)
    | far _ uses => exact hasTier_of_uses (.inr uses)
    | missing skips tiers => exact ⟨tiers, skips⟩
  exact hcase h rfl

/-- **Looking for the value** comes to the same, whether alone or in a shared run.

**Proof sketch.** A missing key is missing again in the shared run. An entry that cannot be read is
dropped, by the one caller before its second look-up and by the other after it, and then the key is
missing. -/
theorem seek_alone (hc : c.Reached) (hs : c.setup = s) (hv : c.flights.Vacant) :
    SoughtAlike item.key ((s.seek ty item).run visit c) ((s.seekShared ty item).run visit c) := by
  obtain ⟨hflights, hends⟩ := (lookup_onlyNames s ty item.key item.options).apart visit c
  have hreached := hc.run visit (s.lookup ty item.key item.options)
  have hsetup := Prog.setup_run visit (s.lookup ty item.key item.options) c
  rw [seek, seekShared, Prog.run_bind, Prog.run_bind]
  cases hlook : (s.lookup ty item.key item.options).run visit c with
  | mk r c₁ =>
  rw [hlook] at hflights hends hreached hsetup
  cases r with
  | blocked rest => exact absurd rfl (hends rest)
  | crashed => exact .crashed c₁
  | finished reading =>
  simp only [Prog.resume]
  cases reading with
  | ok v => exact .answered (.ok v) c₁
  | error f =>
    have hv₁ : c₁.flights.Vacant := hflights ▸ hv
    have hs₁ : c₁.setup = s := hsetup.trans hs
    have hsettled := lookup_settles hc hs hlook
    cases hmissing : f.isMissing with
    | true =>
      obtain ⟨d, hrun, htwins⟩ := seekRun_alone hreached.sound hs₁ hv₁ hsettled
      simp only [seekAfter, sharedAfter, hmissing, if_true, Bool.true_or, hrun]
      simp only [storedAfter, hmissing, if_true]
      exact .missing htwins
    | false =>
    cases hcorrupt : f.isCorruption with
    | false =>
      simp only [seekAfter, sharedAfter, hmissing, hcorrupt, Bool.or_self, Bool.false_eq_true,
        if_false]
      exact .answered (.error f) c₁
    | true =>
      obtain ⟨d, hrun, htwins⟩ := seekRun_alone hreached.sound hs₁ hv₁ hsettled
      -- the one caller drops the entry, and looks for it again
      obtain ⟨htiers, hskips⟩ := hsettled.looks hcorrupt
      obtain ⟨c₂, hheal, hgone⟩ := heal_settles ty visit hreached.sound hs₁ hskips htiers
      have hreached₂ := hreached.run visit (s.heal item.key item.options)
      have hsetup₂ := Prog.setup_run visit (s.heal item.key item.options) c₁
      rw [hheal] at hreached₂ hsetup₂
      obtain ⟨c₃, hagain, htwins₃⟩ := hgone.lookup hreached₂.sound (hsetup₂.trans hs₁)
      -- the other one drops it in the shared run
      have htogether := (heal_onlyNames s item.key item.options).run_twins visit htwins
      rw [hheal] at htogether
      obtain ⟨c₄, hheal'⟩ : ∃ c₄, (s.heal item.key item.options).run visit d =
          (.finished (.ok ()), c₄) :=
        ⟨((s.heal item.key item.options).run visit d).2, Prod.ext htogether.progress.symm rfl⟩
      rw [hheal'] at htogether
      simp only [seekAfter, sharedAfter, hmissing, hcorrupt, Bool.or_true, Bool.false_eq_true,
        if_false, if_true, hrun, storedAfter, Prog.run_bind, hheal, hheal', Prog.resume, seekAgain,
        hagain, unlessHealed, unlessMissing, Prog.run, Failure.isMissing, landedUnless]
      exact .missing (htwins₃.symm.trans htogether.twins)

/-! ## Making the value -/

/-- Making a value with a loader is waiting for it and keeping what it gives. -/
lemma make_of_loader {loader : ρ} (h : item.loader = some loader) (mode : String) :
    s.make ty item mode = .count (.load mode) (.startLoad (.awaitLoad fun answer =>
      s.keep ty item (loadedOf answer))) := by
  rw [make, produce_of_loader h]
  rfl

/-- Making a value without a loader is keeping the value of the item, if there is one. -/
lemma make_of_plain (h : item.loader = none) (mode : String) :
    s.make ty item mode = .count (.load mode) (s.keep ty item (plainOf item)) := by
  rw [make, produce_of_plain h]
  rfl

/-- **Keeping** a value names its key only. -/
lemma keep_onlyNames (produced : Except Failure Value) :
    (s.keep ty item produced).OnlyNames item.key := by
  cases produced with
  | error f => trivial
  | ok v =>
    simp only [keep]
    split
    · trivial
    · exact (store_onlyNames s ty item.key item.options v _).bind fun _ => trivial

/-- What was kept is what was computed, with its stored form. -/
lemma keep_made {produced : Except Failure Value} {v : Value} {data : Bytes}
    (h : (s.keep ty item produced).run visit c = (.finished (.ok (v, data)), c')) :
    produced = .ok v ∧ s.envelope.encode ty v = .ok data := by
  cases produced with
  | error f => cases h
  | ok w =>
    simp only [keep] at h
    cases hencode : s.envelope.encode ty w with
    | error f =>
      rw [hencode] at h
      cases h
    | ok stored =>
      rw [hencode] at h
      simp only [Prog.run_bind] at h
      rcases hstore : (s.store ty item.key w stored item.options).run visit c with
        ⟨(f | _) | rest | _, c₁⟩
      · rw [hstore] at h
        cases h
      · rw [hstore] at h
        cases h
        exact ⟨rfl, hencode⟩
      · rw [hstore] at h
        cases h
      · rw [hstore] at h
        cases h

/-- How the two calls end, side by side, after one of them has looked for the value: with what it
has found, or with what comes of making the value. -/
inductive Matched (s : Setup) (ty : Ty) (supplied : Value → Prop) :
    Progress (Option Reading) → Progress Reading → Progress Reading → Prop where
  | found (r : Reading) :
      Matched s ty supplied (.finished (some r)) (.finished r) (.finished r)
  | made {v : Value} {data : Bytes} (supplies : supplied v)
      (encode : s.envelope.encode ty v = .ok data) :
      Matched s ty supplied (.finished none) (.finished (.ok (some v)))
        (.finished (.ok (keptOf v data)))
  | failed (f : Failure) :
      Matched s ty supplied (.finished none) (.finished (.error f)) (.finished (.error (.shared f)))
  | waits (rest rest' : Prog Reading) :
      Matched s ty supplied (.finished none) (.blocked rest) (.blocked rest')
  | crashed (sought : Progress (Option Reading)) : Matched s ty supplied sought .crashed .crashed

/-- The two calls end alike, and leave twins. -/
structure EndAlike (s : Setup) (ty : Ty) (key : String) (supplied : Value → Prop)
    (sought : Progress (Option Reading)) (x y : Progress Reading × Cache MemoryStore) : Prop where
  ends : Matched s ty supplied sought x.1 y.1
  twins : Cache.Twins key x.2 y.2

/-- What a caller hands over of a value that it has made alone. -/
def handOver (made : Except Failure (Value × Bytes)) : Prog Reading :=
  .done (made.map fun made => some made.1)

/-- What a caller hands over of a value that it has made in a shared run. -/
def handOverShared (ty : Ty) (made : Except Failure (Value × Bytes)) : Prog Reading :=
  landed ty (made.map Prod.snd)

variable {supplied : Value → Prop} {later : List Visit}

/-- **Keeping a value** that was computed comes to the same.

**Proof sketch.** The tiers are written alike. What was written in the shared run is read as the
value unless it is empty. -/
lemma keep_alone {produced : Except Failure Value} (hs : ∀ v, produced = .ok v → supplied v)
    (hback : ∀ v data, supplied v → s.envelope.encode ty v = .ok data → data ≠ [] →
      Envelope.decode ty data = .ok (some v))
    (htwins : c.Twins item.key c') :
    EndAlike s ty item.key supplied (.finished none)
      (((s.keep ty item produced).bind handOver).drive (visit :: later) c)
      (((s.keep ty item produced).bind (handOverShared ty)).drive (visit :: later) c') := by
  have hnames : (s.keep ty item produced).OnlyNames item.key := keep_onlyNames produced
  have hends := (hnames.apart visit c).2
  have htogether := hnames.run_twins visit htwins
  have hrun := Prog.run_bind visit (s.keep ty item produced) handOver c
  have hrun' := Prog.run_bind visit (s.keep ty item produced) (handOverShared ty) c'
  cases hkeep : (s.keep ty item produced).run visit c with
  | mk r d =>
  cases hkeep' : (s.keep ty item produced).run visit c' with
  | mk r' d' =>
  rw [hkeep] at hends hrun htogether
  rw [hkeep'] at hrun' htogether
  obtain rfl : r = r' := htogether.progress
  have hleft : d.Twins item.key d' := htogether.twins
  cases r with
  | blocked rest => exact absurd rfl (hends rest)
  | crashed =>
    rw [Prog.drive_crashed hrun, Prog.drive_crashed hrun']
    exact ⟨.crashed _, hleft.of_same rfl rfl rfl rfl rfl rfl rfl rfl⟩
  | finished made =>
    rw [Prog.drive_finished hrun, Prog.drive_finished hrun']
    refine ⟨?_, hleft.of_same rfl rfl rfl rfl rfl rfl rfl rfl⟩
    cases made with
    | error f => exact .failed f
    | ok pair =>
      obtain ⟨v, data⟩ := pair
      obtain ⟨hproduced, hencode⟩ := keep_made hkeep
      have hgiven : receive ty (.ok data) = .ok (keptOf v data) :=
        Content.read_stored ((em (data = [])).imp_right (hback v data (hs v hproduced) hencode))
      simp only [Except.map, hgiven]
      exact .made (hs v hproduced) hencode

/-- A value that an item gives at one of the visits of its caller. -/
def Supplied (item : Item ρ) (visits : List Visit) (v : Value) : Prop :=
  ∃ visit ∈ visits, Produces item visit.loaded v

/-- **Making the value** comes to the same.

**Proof sketch.** The counters apart, the two calls do the same until the value is computed: the
loader is started once, and each of them waits for the same visit. -/
theorem make_alone {visits : List Visit} (hvisits : visits = visit :: later)
    (hback : ∀ v data, Supplied item visits v → s.envelope.encode ty v = .ok data → data ≠ [] →
      Envelope.decode ty data = .ok (some v))
    (htwins : c.Twins item.key c') :
    EndAlike s ty item.key (Supplied item visits) (.finished none)
      (((s.make ty item "take").bind handOver).drive visits c)
      (((s.make ty item "once").bind (handOverShared ty)).drive visits c') := by
  cases hloader : item.loader with
  | none =>
    rw [make_of_plain hloader, make_of_plain hloader]
    have hcounts : ∀ (mode : String) (k : Except Failure (Value × Bytes) → Prog Reading)
        (e : Cache MemoryStore),
        Prog.drive visits (Prog.bind (.count (.load mode) (s.keep ty item (plainOf item))) k) e =
          Prog.drive visits ((s.keep ty item (plainOf item)).bind k)
            (e.recordEvent (.load mode)) := by
      intro mode k e
      rw [hvisits]
      exact Prog.drive_congr rfl later
    rw [hcounts, hcounts, hvisits]
    refine keep_alone (fun v hv => ⟨visit, List.mem_cons_self, ?_⟩) (hvisits ▸ hback)
      (htwins.of_same rfl rfl rfl rfl rfl rfl rfl rfl)
    rw [Produces, hloader]
    rw [plainOf] at hv
    cases hvalue : item.value with
    | none =>
      rw [hvalue] at hv
      cases hv
    | some w =>
      rw [hvalue] at hv
      cases hv
      rfl
  | some loader =>
    rw [make_of_loader hloader, make_of_loader hloader]
    have htwins₁ : Cache.Twins item.key
        { c.recordEvent (.load "take") with started := c.started ++ [visit.caller] }
        { c'.recordEvent (.load "once") with started := c'.started ++ [visit.caller] } :=
      { htwins with started := congrArg (fun l => l ++ [visit.caller]) htwins.started }
    have hstarts : ∀ (mode : String) (k : Except Failure (Value × Bytes) → Prog Reading)
        (e : Cache MemoryStore),
        Prog.drive visits (Prog.bind (.count (.load mode) (.startLoad (.awaitLoad fun answer =>
          s.keep ty item (loadedOf answer)))) k) e =
        Prog.drive visits (.awaitLoad fun answer => (s.keep ty item (loadedOf answer)).bind k)
          { e.recordEvent (.load mode) with started := e.started ++ [visit.caller] } := by
      intro mode k e
      rw [hvisits]
      exact Prog.drive_congr rfl later
    rw [hstarts, hstarts]
    rcases Prog.drive_awaitLoad (α := Reading) (σ := MemoryStore) visits with
      hwaits | ⟨visit', hmem, later', answer, hloaded, hgoes⟩
    · rw [hwaits, hwaits]
      exact ⟨.waits _ _, htwins₁⟩
    · rw [hgoes, hgoes]
      refine keep_alone (fun v hv => ⟨visit', hmem, ?_⟩) hback htwins₁
      rw [Produces, hloader, hloaded]
      cases answer with
      | error reason => cases hv
      | ok w =>
        cases hv
        rfl

/-! ## Reading or computing -/

/-- What does not depend on whether a caller that is alone asks for a shared run: what its look-ups
come to and how the call ends, how often its loader runs, and what the tiers hold under its key. The
destination is left alike as well, unless a value was made whose stored form is empty; this value is
handed over by a caller that has made it alone, and is nothing to one that has made it in a shared
run. -/
structure SameOutcome (s : Setup) (ty : Ty) (item : Item ρ) (visits : List Visit)
    (sought : Progress (Option Reading)) (dest : Value)
    (x y : Progress Reading × Cache MemoryStore) : Prop where
  ends : Matched s ty (Supplied item visits) sought x.1 y.1
  loads : x.2.started = y.2.started
  near : x.2.nearAt item.key = y.2.nearAt item.key
  far : x.2.farAt item.key = y.2.farAt item.key
  dest : destAfter dest x.1 = destAfter dest y.1 ∨ ∃ v, Supplied item visits v ∧
    s.envelope.encode ty v = .ok [] ∧ sought = .finished none ∧ destAfter dest x.1 = v ∧
    destAfter dest y.1 = dest

/-- Two calls that end alike have the same outcome. -/
lemma EndAlike.sameOutcome {visits : List Visit} {sought : Progress (Option Reading)}
    {x y : Progress Reading × Cache MemoryStore}
    (h : EndAlike s ty item.key (Supplied item visits) sought x y) (dest : Value) :
    SameOutcome s ty item visits sought dest x y := by
  refine ⟨h.ends, h.twins.started, h.twins.nearAt, h.twins.farAt, ?_⟩
  have hends := h.ends
  generalize x.1 = r, y.1 = r' at hends
  cases hends with
  | found r => exact .inl rfl
  | @made v data supplies encode =>
    by_cases hdata : data = []
    · subst hdata
      exact .inr ⟨v, supplies, encode, rfl, rfl, rfl⟩
    · rw [keptOf, if_neg hdata]
      exact .inl rfl
  | failed f => exact .inl rfl
  | waits rest rest' => exact .inl rfl
  | crashed sought => exact .inl rfl

/-- **The calls of a caller that is alone** end alike, and leave twins.

**Proof sketch.** Looking for the value comes to the same. If it gives an answer both calls end with
it, and if not then making the value comes to the same. -/
theorem ends_alone (hc : c.Reached) (hv : c.flights.Vacant) (ty : Ty) (item : Item ρ)
    (visit : Visit) (later : List Visit)
    (hback : ∀ v data, Supplied item (visit :: later) v → c.envelope.encode ty v = .ok data →
      data ≠ [] → Envelope.decode ty data = .ok (some v)) :
    EndAlike c.setup ty item.key (Supplied item (visit :: later))
      ((c.setup.seek ty item).run visit c).1
      ((c.setup.take ty item).drive (visit :: later) c)
      ((c.setup.once ty item).drive (visit :: later) c) := by
  have hsought : SoughtAlike item.key ((c.setup.seek ty item).run visit c)
      ((c.setup.seekShared ty item).run visit c) := seek_alone hc rfl hv
  have htake := Prog.run_bind visit (c.setup.seek ty item) (c.setup.orCompute ty item) c
  have honce := Prog.run_bind visit (c.setup.seekShared ty item) (c.setup.orComputeShared ty item) c
  have hreached := hc.run visit (c.setup.seek ty item)
  rw [← take_eq] at htake
  rw [← once_eq_seek] at honce
  cases hseek : (c.setup.seek ty item).run visit c with
  | mk sought d =>
  cases hseek' : (c.setup.seekShared ty item).run visit c with
  | mk sought' d' =>
  rw [hseek] at htake hsought hreached
  rw [hseek'] at honce hsought
  cases hsought with
  | answered r d =>
    rw [Prog.drive_finished htake, Prog.drive_finished honce]
    exact ⟨.found r, .refl hreached.sound⟩
  | missing twins =>
    have hcompute : c.setup.compute ty item = (c.setup.make ty item "take").bind handOver :=
      compute_eq c.setup ty item
    have hshared : (c.setup.computeStored ty item).bind (landed ty) =
        (c.setup.make ty item "once").bind (handOverShared ty) := by
      rw [computeStored_eq_make, Prog.bind_assoc]
      rfl
    have htakes := Prog.drive_congr (q := c.setup.compute ty item) htake later
    have honces := Prog.drive_congr (q := (c.setup.computeStored ty item).bind (landed ty))
      honce later
    rw [htakes, honces, hcompute, hshared]
    exact make_alone rfl hback twins
  | crashed d =>
    rw [Prog.drive_crashed htake, Prog.drive_crashed honce]
    exact ⟨.crashed _, .refl hreached.sound⟩

/-- **For a caller that is alone** it makes no difference to the outcome whether it asks for a
shared run, if the values that it may make are read back from a stored form that is not empty.

**Proof sketch.** The two calls end alike. They leave the same in the destination of the caller
unless what they have made is stored as nothing. -/
theorem lone_caller (c : Cache MemoryStore) (hc : c.Reached) (hv : c.flights.Vacant) (ty : Ty)
    (item : Item ρ) (visit : Visit) (later : List Visit) (dest : Value)
    (hback : ∀ v data, Supplied item (visit :: later) v → c.envelope.encode ty v = .ok data →
      data ≠ [] → Envelope.decode ty data = .ok (some v)) :
    SameOutcome c.setup ty item (visit :: later) ((c.setup.seek ty item).run visit c).1 dest
      ((c.setup.take ty item).drive (visit :: later) c)
      ((c.setup.once ty item).drive (visit :: later) c) :=
  (ends_alone hc hv ty item visit later hback).sameOutcome dest

/-- A caller whose loader gives a number at its second visit has the same outcome in two tiers,
either way. -/
theorem lone_caller_patient :
    narrowTiers.Reached ∧ narrowTiers.flights.Vacant ∧
      SameOutcome narrowTiers.setup (.scalar (.int .int64)) { key := "k", loader := some () }
        [⟨0, 0, none⟩, ⟨1, 0, some (.ok (.int 7))⟩]
        ((narrowTiers.setup.seek (.scalar (.int .int64)) { key := "k", loader := some () }).run
          ⟨0, 0, none⟩ narrowTiers).1 (.int 0)
        ((narrowTiers.setup.take (.scalar (.int .int64)) { key := "k", loader := some () }).drive
          [⟨0, 0, none⟩, ⟨1, 0, some (.ok (.int 7))⟩] narrowTiers)
        ((narrowTiers.setup.once (.scalar (.int .int64)) { key := "k", loader := some () }).drive
          [⟨0, 0, none⟩, ⟨1, 0, some (.ok (.int 7))⟩] narrowTiers) := by
  have hreached : narrowTiers.Reached :=
    .of_new (show narrowTiers.near = NearTier.new (fun _ => 0) (fun _ => 0) 1 0 from rfl)
  have hvacant : narrowTiers.flights.Vacant :=
    ⟨Flight.Group.orderly_empty, fun _ _ _ _ => Flight.Group.not_sits_empty⟩
  refine ⟨hreached, hvacant, lone_caller _ hreached hvacant _ _ _ _ _ fun v data hv hdata _ => ?_⟩
  obtain ⟨visit, hmem, hgives⟩ := hv
  have hgives : visit.loaded = some (.ok v) := hgives
  rcases List.mem_cons.mp hmem with rfl | hmem
  · cases hgives
  · obtain rfl := List.mem_singleton.mp hmem
    cases hgives
    cases hdata
    rfl

/-- A far tier alone, with nothing in it. -/
def farOnly : Cache MemoryStore := { far := some {} }

/-- An item that leaves the tiers alone. -/
def skippingItem : Item Unit := { key := "k", loader := some (), options := { skip := .all } }

/-- **The destination may depend on it** whether a caller that is alone asks for a shared run,
although bytes are read back from every stored form that is not empty: no bytes at all are handed
over by a caller that has made them alone, and are nothing to one that has made them in a shared
run. -/
theorem lone_caller_empty :
    ¬ ∀ (c : Cache MemoryStore), c.Reached → c.flights.Vacant →
      (c.near.isSome = true ∨ c.far.isSome = true) → ∀ (ty : Ty),
      (∀ v data, Ty.admits ty ty v = true → c.envelope.encode ty v = .ok data → data ≠ [] →
        Envelope.decode ty data = .ok (some v)) →
      ∀ (item : Item Unit) (visit : Visit) (later : List Visit) (dest : Value),
        (∀ v, Supplied item (visit :: later) v → Ty.admits ty ty v = true) →
        destAfter dest ((c.setup.take ty item).drive (visit :: later) c).1 =
          destAfter dest ((c.setup.once ty item).drive (visit :: later) c).1 := by
  intro hsame
  have hreached : farOnly.Reached := fun _ ht => nomatch ht
  have hvacant : farOnly.flights.Vacant :=
    ⟨Flight.Group.orderly_empty, fun _ _ _ _ => Flight.Group.not_sits_empty⟩
  have hback : ∀ v data, Ty.admits (.scalar .octets) (.scalar .octets) v = true →
      farOnly.envelope.encode (.scalar .octets) v = .ok data → data ≠ [] →
        Envelope.decode (.scalar .octets) data = .ok (some v) := by
    intro v data hv hencode hdata
    cases v with
    | octets bs =>
      cases hencode
      exact Envelope.decode_octets hdata
    | _ => cases hv
  have hsupplied : ∀ v, Supplied skippingItem [⟨0, 0, some (.ok (.octets []))⟩] v →
      Ty.admits (.scalar .octets) (.scalar .octets) v = true := by
    rintro v ⟨visit, hmem, hgives⟩
    obtain rfl := List.mem_singleton.mp hmem
    cases hgives
    rfl
  have hdest := hsame farOnly hreached hvacant (.inr rfl) (.scalar .octets) hback skippingItem
    ⟨0, 0, some (.ok (.octets []))⟩ [] (.octets [1]) hsupplied
  have hends := (ends_alone hreached hvacant (.scalar .octets) skippingItem
    ⟨0, 0, some (.ok (.octets []))⟩ [] fun v data hv => hback v data (hsupplied v hv)).ends
  have hsought : ((farOnly.setup.seek (.scalar .octets) skippingItem).run
      ⟨0, 0, some (.ok (.octets []))⟩ farOnly).1 = .finished none := rfl
  have htake : ((farOnly.setup.take (.scalar .octets) skippingItem).drive
      [⟨0, 0, some (.ok (.octets []))⟩] farOnly).1 = .finished (.ok (some (.octets []))) := rfl
  rw [hsought, htake] at hends
  rw [htake] at hdest
  generalize ((farOnly.setup.once (.scalar .octets) skippingItem).drive
    [⟨0, 0, some (.ok (.octets []))⟩] farOnly).1 = r at hends hdest
  cases hends with
  | made supplies encode =>
    cases encode
    cases hdest

end Setup

end LayeredCache
