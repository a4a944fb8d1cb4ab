import LayeredCache.Proofs.Serial.Current
import LayeredCache.Proofs.SharedLoad.Turns

/-!
# Operations one at a time

An operation whose loader answers at once and that finds no shared run under way ends without
waiting, and keeps the cache coherent. The operations are put together from look-ups, deletes and
writes, and so is the proof for each of them.

## Main definitions

* `Prog.Advances` — a program ends and keeps a cache coherent.
* `Flight.Group.Vacant` — nobody is inside a shared run.
* `Flight.Group.ComesAlone` — nobody is inside the run of a key.
* `Cache.Served` — what an operation that ends leads to.

## Main results

* `Setup.lookup_advances`, `Setup.store_advances`, `Setup.take_advances`, `Setup.flight_advances` —
  the operations apart from shared loads.
* `Setup.once_served` — a shared load of a caller that is alone.
-/

set_option autoImplicit false

namespace LayeredCache

open Far Flight

/-! ## Programs -/

/-- A program that ends on every sound cache of a given setup, and keeps it coherent. -/
def Prog.Advances {α : Type} (visit : Visit) (s : Setup) (p : Prog α) : Prop :=
  ∀ c : Cache MemoryStore, c.Sound → c.setup = s →
    ∃ ds r c', p.Does visit c ds r c' ∧ c.Advanced ds c' ∧ ∀ rest, r ≠ .blocked rest

namespace Prog.Advances

variable {α β : Type} {visit : Visit} {s : Setup}

/-- A program that is done. -/
lemma done {a : α} : (Prog.done a).Advances visit s :=
  fun c hc _ => ⟨[], _, c, .done, .refl hc, by simp⟩

/-- **Two programs in a row.** -/
lemma bind {p : Prog α} {f : α → Prog β} (hp : p.Advances visit s)
    (hf : ∀ a, (f a).Advances visit s) : (p.bind f).Advances visit s := by
  intro c hc hs
  obtain ⟨ds, r, c₁, hdoes, hadvanced, hends⟩ := hp c hc hs
  cases r with
  | finished a =>
    obtain ⟨ds', r', c', hdoes', hadvanced', hends'⟩ :=
      hf a c₁ hadvanced.sound (hadvanced.setup.trans hs)
    exact ⟨_, r', c', hdoes.bind hdoes', hadvanced.trans hadvanced', hends'⟩
  | blocked rest => exact absurd rfl (hends rest)
  | crashed => exact ⟨ds, .crashed, c₁, hdoes.bind_crashed, hadvanced, by simp⟩

/-- Counting an event. -/
lemma count {event : Event} {next : Prog α} (h : next.Advances visit s) :
    (Prog.count event next).Advances visit s := by
  intro c hc hs
  obtain ⟨ds, r, c', hdoes, hadvanced, hends⟩ := h (c.recordEvent event) hc hs
  have hcounted : c.Advanced [] (c.recordEvent event) := .of_same hc rfl rfl rfl rfl
  exact ⟨ds, r, c', .count hdoes, hcounted.trans hadvanced, hends⟩

/-- Asking whether the near tier serves a key. -/
lemma holds {key : String} {next : Bool → Prog α} (h : ∀ b, (next b).Advances visit s) :
    (Prog.holds key next).Advances visit s := by
  intro c hc hs
  obtain ⟨ds, r, c', hdoes, hadvanced, hends⟩ := h _ c hc hs
  exact ⟨ds, r, c', .holds hdoes, hadvanced, hends⟩

/-- Running a loader that answers at once. -/
lemma load {next : Except LoadFailure Value → Prog α} {answer : Except LoadFailure Value}
    (hloaded : visit.loaded = some answer) (h : (next answer).Advances visit s) :
    (Prog.startLoad (.awaitLoad next)).Advances visit s := by
  intro c hc hs
  let c₁ : Cache MemoryStore := { c with started := c.started ++ [visit.caller] }
  obtain ⟨ds, r, c', hdoes, hadvanced, hends⟩ := h c₁ hc hs
  have hstarted : c.Advanced [] c₁ := .of_same hc rfl rfl rfl rfl
  exact ⟨ds, r, c', .startLoad (.awaitLoad hloaded hdoes), hstarted.trans hadvanced, hends⟩

end Prog.Advances

/-! ## Operations apart from shared loads -/

/-- Options of a call that skips no tier and stores no native value. -/
structure CallOptions.Ordinary (o : CallOptions) : Prop where
  skip : o.skip = .none
  raw : o.raw = false

namespace Setup

variable {ρ : Type} {s : Setup} {o : CallOptions} {visit : Visit} {key : String} {ty : Ty}
  {item : Item ρ}

/-- **Look-ups** keep a cache coherent. -/
lemma lookup_advances (ty : Ty) (key : String) (htier : s.hasTier = true)
    (hskip : o.skip = .none) : (s.lookup ty key o).Advances visit s := by
  intro c hc hs
  obtain ⟨ds, r, c', hdoes, hfollows, hlooks, hfound, -⟩ :=
    lookup_does visit key ty hc hs htier hskip
  subst hs
  refine ⟨ds, r, c', hdoes, .of_follows hfollows hlooks, fun rest hr => ?_⟩
  subst hr
  cases hfound

/-- Look-ups in the far tier keep a cache coherent. -/
lemma fetch_advances (key : String) (hskip : o.skip = .none) :
    (s.fetch key o).Advances visit s := by
  intro c hc hs
  obtain ⟨ds, r, c', hdoes, hfollows, hlooks, hcase⟩ := fetch_does visit key hc hs hskip
  subst hs
  refine ⟨ds, r, c', hdoes, .of_follows hfollows hlooks, fun rest hr => ?_⟩
  rcases hcase with ⟨hr', -⟩ | ⟨h, -, hr'⟩ | ⟨hr', -⟩
  · cases hr'.symm.trans hr
  · cases hr'.symm.trans hr
  · cases hr'.symm.trans hr

/-- **Deletes** keep a cache coherent. -/
lemma delete_advances (key : String) : (s.delete key).Advances visit s := by
  unfold delete
  split
  · intro c hc hs
    obtain ⟨c', hdoes, hcleared⟩ := deleteFrom_does visit key hc hs
    subst hs
    exact ⟨_, _, c', hdoes, .of_cleared hcleared, by simp⟩
  · exact .done

/-- Healing keeps a cache coherent. -/
lemma heal_advances (key : String) (hskip : o.skip = .none) :
    (s.heal key o).Advances visit s := by
  intro c hc hs
  obtain ⟨c', hdoes, hcleared⟩ := heal_does visit key hc hs hskip
  subst hs
  exact ⟨_, _, c', hdoes, .of_cleared hcleared, by simp⟩

/-- **Writes** keep a cache coherent, whether they are applied, are refused, or crash before the far
tier is asked. -/
lemma store_advances (ty : Ty) (key : String) (v : Value) (data : Bytes) (htier : s.hasTier = true)
    (ho : o.Ordinary) (hrep : MemoryStore.Representable visit.now o.lifetime) :
    (s.store ty key v data o).Advances visit s := by
  have hcontent : contentOf ty v data o = .stored data := by
    rw [contentOf, ho.raw, if_neg Bool.false_ne_true]
  intro c hc hs
  have hstore := store_does visit key ty v data hc hs htier ho.skip hrep
  rw [hcontent] at hstore
  subst hs
  rcases hstore with ⟨c', hdoes, hwrote⟩ | ⟨c', hfar, hcondition, hdoes, hrefused⟩ | ⟨hdoes, -⟩
  · exact ⟨_, _, c', hdoes, .of_wrote hwrote htier, by simp⟩
  · exact ⟨_, _, c', hdoes, .of_refused hrefused hfar hcondition, by simp⟩
  · exact ⟨_, _, c, hdoes, .refl hc, by simp⟩

/-- Encoding and writing keeps a cache coherent. -/
lemma set_advances (ty : Ty) (key : String) (v : Value) (htier : s.hasTier = true)
    (ho : o.Ordinary) (hrep : MemoryStore.Representable visit.now o.lifetime) :
    (s.set ty key v o).Advances visit s := by
  unfold set
  cases s.envelope.encode ty v with
  | error f => exact .done
  | ok data => exact store_advances ty key v data htier ho hrep

/-- Asking for a key keeps a cache coherent. -/
lemma has_advances (key : String) (hskip : o.skip = .none) : (s.has key o).Advances visit s := by
  -- what follows when the near tier was asked
  have hrest : ∀ next : Outcome → Prog Bool, (∀ found, ∃ b, next found = .done b) →
      ∀ near : Bool, Prog.Advances visit s
        (if near then return true else (s.fetch key o).bind next) := by
    intro next hnext near
    cases near with
    | true => exact .done
    | false =>
      refine .bind (fetch_advances key hskip) fun found => ?_
      obtain ⟨b, hb⟩ := hnext found
      rw [hb]
      exact .done
  unfold has
  split
  · exact .done
  · dsimp only
    split
    · exact .bind (.holds fun b => .done) (hrest _ fun found => by cases found <;> exact ⟨_, rfl⟩)
    · exact .bind .done (hrest _ fun found => by cases found <;> exact ⟨_, rfl⟩)

/-- Computing a value touches no tier. -/
lemma produce_advances (item : Item ρ) (mode : String) (hloaded : visit.loaded.isSome) :
    (produce item mode).Advances visit s := by
  obtain ⟨answer, hanswer⟩ := Option.isSome_iff_exists.mp hloaded
  unfold produce
  refine .count ?_
  cases item.loader with
  | none =>
    cases item.value with
    | none => exact .done
    | some v => exact .done
  | some name =>
    refine .load hanswer ?_
    cases answer with
    | error reason => exact .done
    | ok v => exact .done

/-- Computing and writing keeps a cache coherent. -/
lemma compute_advances (ty : Ty) (htier : s.hasTier = true) (ho : item.options.Ordinary)
    (hrep : MemoryStore.Representable visit.now item.options.lifetime)
    (hloaded : visit.loaded.isSome) : (s.compute ty item).Advances visit s := by
  unfold compute
  refine .bind (produce_advances item "take" hloaded) fun produced => ?_
  cases produced with
  | error f => exact .done
  | ok v =>
    refine .bind (set_advances ty item.key v htier ho hrep) fun written => ?_
    cases written with
    | error f => exact .done
    | ok u => exact .done

/-- **Reading or computing** keeps a cache coherent. -/
lemma take_advances (ty : Ty) (htier : s.hasTier = true) (ho : item.options.Ordinary)
    (hrep : MemoryStore.Representable visit.now item.options.lifetime)
    (hloaded : visit.loaded.isSome) : (s.take ty item).Advances visit s := by
  have hcompute := compute_advances ty htier ho hrep hloaded
  unfold take
  refine .bind (lookup_advances ty item.key htier ho.skip) fun found => ?_
  cases found with
  | ok v => exact .done
  | error f =>
    dsimp only
    split
    · exact hcompute
    · split
      · refine .bind (heal_advances item.key ho.skip) fun healed => ?_
        cases healed with
        | error f => exact .done
        | ok u =>
          refine .bind (lookup_advances ty item.key htier ho.skip) fun found => ?_
          cases found with
          | ok v => exact .done
          | error f =>
            dsimp only
            split
            · exact hcompute
            · exact .done
      · exact .done

/-- Computing and writing inside a shared run keeps a cache coherent. -/
lemma computeStored_advances (ty : Ty) (htier : s.hasTier = true) (ho : item.options.Ordinary)
    (hrep : MemoryStore.Representable visit.now item.options.lifetime)
    (hloaded : visit.loaded.isSome) : (s.computeStored ty item).Advances visit s := by
  unfold computeStored
  refine .bind (produce_advances item "once" hloaded) fun produced => ?_
  cases produced with
  | error f => exact .done
  | ok v =>
    dsimp only
    cases s.envelope.encode ty v with
    | error f => exact .done
    | ok data =>
      refine .bind (store_advances ty item.key v data htier ho hrep) fun written => ?_
      cases written with
      | error f => exact .done
      | ok u => exact .done

/-- **The body of a shared run** keeps a cache coherent. -/
lemma flight_advances (ty : Ty) (htier : s.hasTier = true) (ho : item.options.Ordinary)
    (hrep : MemoryStore.Representable visit.now item.options.lifetime)
    (hloaded : visit.loaded.isSome) : (s.flight ty item).Advances visit s := by
  have hcompute := computeStored_advances ty htier ho hrep hloaded
  unfold flight
  refine .bind (lookup_advances ty item.key htier ho.skip) fun found => ?_
  cases found with
  | ok v =>
    cases v with
    | none => exact .done
    | some v =>
      dsimp only
      cases s.envelope.encode ty v with
      | error f => exact .done
      | ok data => exact .done
  | error f =>
    dsimp only
    split
    · exact hcompute
    · split
      · refine .bind (heal_advances item.key ho.skip) fun healed => ?_
        cases healed with
        | error f => exact .done
        | ok u => exact hcompute
      · exact .done

end Setup

/-! ## Shared loads -/

namespace Flight.Group

variable {τ : Type} {g g' : Group τ}

/-- Nobody is inside a shared run. -/
structure Vacant (g : Group τ) : Prop where
  orderly : g.Orderly
  empty : ∀ w q k output, ¬ g.Sits w q k output

/-- A caller that has come alone and has gone leaves nobody inside. -/
lemma Vacant.of_passes {i : Caller} (h : g.Vacant) (hpasses : Passes i g g')
    (hseat : g'.seat? i = none) : g'.Vacant where
  orderly := hpasses.orderly
  empty w q k output hs := by
    by_cases hw : w = i
    · subst hw
      exact hpasses.orderly.seat_eq_none_iff.mp hseat q k output hs
    · obtain ⟨output', hs'⟩ := hpasses.others w hw q k output hs
      exact h.empty w q k output' hs'

/-- A caller that is inside no call comes when nobody is inside a run of its key that is not
complete. -/
structure ComesAlone (g : Group τ) (i : Caller) (key : String) : Prop where
  orderly : g.Orderly
  outside : g.seat? i = none
  empty : ∀ w p, ¬ g.Sits w p key none

/-- When nobody is inside a shared run every caller comes alone. -/
lemma Vacant.comesAlone (h : g.Vacant) (i : Caller) (key : String) : g.ComesAlone i key where
  orderly := h.orderly
  outside := h.orderly.seat_eq_none_iff.mpr fun p k output => h.empty i p k output
  empty w p := h.empty w p key none

/-- **A caller that comes alone** is to run.

**Proof sketch.** A caller that waits is not the head of its line, so that another caller is inside;
a caller that collects has joined a call that was there before. -/
lemma ComesAlone.turn_join {i : Caller} {key : String} (h : g.ComesAlone i key) :
    ∃ (p : Nat) (c : Call τ), (g.join i key).calls[p]? = some c ∧ c.line.head? = some i ∧
      c.output = none ∧ (g.join i key).turn i = .start := by
  have hjoin := Passes.join (i := i) h.orderly key
  have hnever := h.orderly.seat_eq_none_iff.mp h.outside
  have hkey : ∀ p k o, g.Sits i p k o → k = key := fun p k o hs => absurd hs (hnever p k o)
  obtain ⟨hothers, p, output, hi, hcase⟩ := h.orderly.sits_join hkey
  have hout : output = none := hcase.resolve_right (hnever p key output)
  subst hout
  have hruns : ¬ g.Runs i := Orderly.not_runs_of_not_sits fun q k => hnever q k none
  rcases hjoin.orderly.turn_cases hi with
    ⟨v, hv, -⟩ | ⟨-, hwait, -⟩ | ⟨-, c, hc, hhead, -, hout, ⟨-, hrunning⟩ | ⟨hstart, -⟩⟩
  · cases hv
  · obtain ⟨q, c, hc, hhead, hout⟩ := hjoin.orderly.seated_of_wait hwait
    have hsame : c.key = key := (hjoin.orderly.sits_unique ⟨c, hc, rfl, hout⟩ hi).2.1
    -- somebody else is the head of the line
    cases hline : c.line with
    | nil =>
      have hmem := hc.2
      rw [hline] at hmem
      cases hmem
    | cons w rest =>
      have hw : w ≠ i := by
        rintro rfl
        exact hhead (by rw [hline]; rfl)
      have hsits : (g.join i key).Sits w q key none :=
        ⟨c, ⟨hc.1, by rw [hline]; exact List.mem_cons_self⟩, hsame, hout⟩
      exact absurd ((hothers w hw q key none).mp hsits) (h.empty w q)
  · exact absurd (h.orderly.runs_join.mp hrunning) hruns
  · exact ⟨p, c, hc, hhead, hout, hstart⟩

end Flight.Group

/-- A caller that comes alone to a shared run goes on as the one that runs. -/
lemma Prog.run_join_alone {α σ : Type} [FarStore σ] {visit : Visit} {key : String}
    {next : Option Outcome → Prog α} {c : Cache σ}
    (h : c.flights.ComesAlone visit.caller key) :
    (Prog.join key next).run visit c = (next none).run visit
      { c with flights := (c.flights.join visit.caller key).start visit.caller } := by
  obtain ⟨-, -, -, -, -, hturn⟩ := h.turn_join
  simp only [Prog.run, hturn]

/-- What an operation that ends leads to: a coherent cache, with nobody inside a shared run. -/
structure Cache.Served (c : Cache MemoryStore) (ds : List Deed) (c' : Cache MemoryStore) :
    Prop where
  sound : c'.Sound
  setup : c'.setup = c.setup
  vacant : c'.flights.Vacant
  coherent : ∀ past, c.Coherent past → c'.Coherent (past ++ ds)

namespace Cache.Advanced

variable {c c' : Cache MemoryStore} {ds : List Deed} (h : c.Advanced ds c')

include h

/-- An operation that leaves the shared runs alone. -/
lemma served (hv : c.flights.Vacant) : c.Served ds c' :=
  ⟨h.sound, h.setup, h.flights ▸ hv, h.coherent⟩

/-- A crash takes its caller out of its shared run. -/
lemma served_leave (hv : c.flights.Vacant) (i : Caller) :
    c.Served ds { c' with flights := c'.flights.leave i } where
  sound := h.sound
  setup := h.setup
  vacant := by
    have hv' : c'.flights.Vacant := h.flights ▸ hv
    exact hv'.of_passes (.leave hv'.orderly) (hv'.orderly.seat_leave i)
  coherent past hc := (h.coherent past hc).of_same rfl rfl

end Cache.Advanced

/-- A program ends, by itself or by a crash that takes the caller out of its shared run, and the
cache is served. -/
def Prog.Serves {α : Type} (visit : Visit) (p : Prog α) (c : Cache MemoryStore) : Prop :=
  ∃ ds c', ((∃ a, p.Does visit c ds (.finished a) c') ∧ c.Served ds c') ∨
    (p.Does visit c ds .crashed c' ∧
      c.Served ds { c' with flights := c'.flights.leave visit.caller })

namespace Prog

variable {α β : Type} {visit : Visit} {s : Setup} {p : Prog α} {c : Cache MemoryStore}

/-- Programs that advance serve when nobody is inside a shared run. -/
lemma Advances.serves (hp : p.Advances visit s) (hc : c.Sound) (hs : c.setup = s)
    (hv : c.flights.Vacant) : p.Serves visit c := by
  obtain ⟨ds, r, c', hdoes, hadvanced, hends⟩ := hp c hc hs
  cases r with
  | finished a => exact ⟨ds, c', .inl ⟨⟨a, hdoes⟩, hadvanced.served hv⟩⟩
  | blocked rest => exact absurd rfl (hends rest)
  | crashed => exact ⟨ds, c', .inr ⟨hdoes, hadvanced.served_leave hv visit.caller⟩⟩

/-- A program whose result is changed serves like the program itself. -/
lemma Serves.map (hp : p.Serves visit c) (f : α → β) :
    (p.bind fun a => .done (f a)).Serves visit c := by
  obtain ⟨ds, c', ⟨⟨a, hdoes⟩, hserved⟩ | ⟨hdoes, hserved⟩⟩ := hp
  · have hmapped := hdoes.bind (f := fun a => .done (f a)) .done
    rw [List.append_nil] at hmapped
    exact ⟨ds, c', .inl ⟨⟨f a, hmapped⟩, hserved⟩⟩
  · exact ⟨ds, c', .inr ⟨hdoes.bind_crashed, hserved⟩⟩

/-- A program after another one that leaves the shared runs alone. -/
lemma Serves.after {f : α → Prog β} {a : α} {ds : List Deed} {c₁ : Cache MemoryStore}
    (hdoes : p.Does visit c ds (.finished a) c₁) (hadvanced : c.Advanced ds c₁)
    (hf : (f a).Serves visit c₁) : (p.bind f).Serves visit c := by
  have htrans : ∀ {ds' c'}, c₁.Served ds' c' → c.Served (ds ++ ds') c' := by
    intro ds' c' h
    refine ⟨h.sound, h.setup.trans hadvanced.setup, h.vacant, fun past hc => ?_⟩
    rw [← List.append_assoc]
    exact h.coherent _ (hadvanced.coherent past hc)
  obtain ⟨ds', c', ⟨⟨b, hdoes'⟩, hserved⟩ | ⟨hdoes', hserved⟩⟩ := hf
  · exact ⟨ds ++ ds', c', .inl ⟨⟨b, hdoes.bind hdoes'⟩, htrans hserved⟩⟩
  · exact ⟨ds ++ ds', c', .inr ⟨hdoes.bind hdoes', htrans hserved⟩⟩

end Prog

namespace Setup

variable {ρ : Type} {s : Setup} {visit : Visit} {ty : Ty} {item : Item ρ}
  {c : Cache MemoryStore}

/-- A caller that comes alone to a shared run runs it, and leaves nobody behind. -/
lemma joinRun_serves (htier : s.hasTier = true) (ho : item.options.Ordinary)
    (hrep : MemoryStore.Representable visit.now item.options.lifetime)
    (hloaded : visit.loaded.isSome) (hc : c.Sound) (hs : c.setup = s)
    (hv : c.flights.Vacant) : (s.joinRun ty item).Serves visit c := by
  obtain ⟨p, d, hd, hhead, hout, hturn⟩ := (hv.comesAlone visit.caller item.key).turn_join
  have hjoin := Flight.Group.Passes.join (i := visit.caller) hv.orderly item.key
  -- the cache when the run begins
  let c₁ : Cache MemoryStore :=
    { c with flights := (c.flights.join visit.caller item.key).start visit.caller }
  have hstart : Flight.Group.Passes visit.caller c.flights c₁.flights :=
    hjoin.trans (.start hjoin.orderly hd hhead hout)
  have hruns : c₁.flights.Runs visit.caller :=
    (hjoin.orderly.runs_start hd hhead hout).mpr (.inr rfl)
  obtain ⟨ds, r, c₂, hflight, hadvanced, hends⟩ :=
    flight_advances ty htier ho hrep hloaded c₁ hc hs
  have hcoherent : ∀ past, c.Coherent past → c₂.Coherent (past ++ ds) :=
    fun past h => hadvanced.coherent past (h.of_same rfl rfl)
  cases r with
  | finished outcome =>
    let c' : Cache MemoryStore := { c₂ with flights := c₂.flights.land visit.caller outcome }
    have hvacant : c'.flights.Vacant := by
      have hland : c'.flights = c₁.flights.land visit.caller outcome := by
        rw [← hadvanced.flights]
      rw [hland]
      exact hv.of_passes (hstart.trans (.land hstart.orderly hruns outcome))
        (hstart.orderly.seat_land hruns outcome)
    refine ⟨ds ++ [], c', .inl ⟨⟨_, .join_start hturn (hflight.bind (.land .done))⟩, ?_⟩⟩
    rw [List.append_nil]
    exact ⟨hadvanced.sound, hadvanced.setup, hvacant,
      fun past h => (hcoherent past h).of_same rfl rfl⟩
  | blocked rest => exact absurd rfl (hends rest)
  | crashed =>
    refine ⟨ds, c₂, .inr ⟨.join_start hturn hflight.bind_crashed, ?_⟩⟩
    refine ⟨hadvanced.sound, hadvanced.setup, ?_, fun past h => (hcoherent past h).of_same rfl rfl⟩
    show (c₂.flights.leave visit.caller).Vacant
    rw [hadvanced.flights]
    exact hv.of_passes (hstart.trans (.leave hstart.orderly))
      (hstart.orderly.seat_leave visit.caller)

/-- **Shared loads** of a caller that is alone serve: it reads a value, or runs itself. -/
lemma once_serves (htier : s.hasTier = true) (ho : item.options.Ordinary)
    (hrep : MemoryStore.Representable visit.now item.options.lifetime)
    (hloaded : visit.loaded.isSome) (hc : c.Sound) (hs : c.setup = s)
    (hv : c.flights.Vacant) : (s.once ty item).Serves visit c := by
  rw [once_eq]
  obtain ⟨ds, r, c₁, hlookup, hadvanced, hends⟩ :=
    lookup_advances ty item.key htier ho.skip c hc hs
  have hs₁ : c₁.setup = s := hadvanced.setup.trans hs
  have hv₁ : c₁.flights.Vacant := hadvanced.flights ▸ hv
  cases r with
  | finished found =>
    refine .after hlookup hadvanced ?_
    cases found with
    | ok v => exact Prog.Advances.done.serves hadvanced.sound hs₁ hv₁
    | error f =>
      dsimp only [afterFirst]
      split
      · exact joinRun_serves htier ho hrep hloaded hadvanced.sound hs₁ hv₁
      · exact Prog.Advances.done.serves hadvanced.sound hs₁ hv₁
  | blocked rest => exact absurd rfl (hends rest)
  | crashed =>
    exact ⟨ds, c₁, .inr ⟨hlookup.bind_crashed, hadvanced.served_leave hv visit.caller⟩⟩

end Setup

end LayeredCache
