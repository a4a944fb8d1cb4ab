import LayeredCache.Proofs.Serial.Operations
import Mathlib.Data.List.Induction

/-!
# Reads are fresh when calls are made one after another

Calls of every kind are made one after another on a cache that was empty at first, at any times and
with any evictions and random draws. A read then gives what decoding the current bytes of its key
gives, or finds nothing; it never gives bytes that were replaced, deleted or refused, although the
near tier may hold an entry for longer than the far tier, and is written before the far tier has
said whether it accepts a write.

## Main definitions

* `Serial.Call`, `Serial.Turn`, `Serial.course` — calls, and what a sequence of them leads to.
* `Serial.Course.current` — the current bytes of a key.
* `Serial.FreshReads` — what is said of reads after a sequence of calls.

## Main results

* `Serial.fresh_reads` — reads are fresh after every sequence of calls.
-/

set_option autoImplicit false

namespace LayeredCache.Serial

open Far Flight

variable {ρ : Type}

/-! ## Sequences of calls -/

/-- A call of the cache. -/
inductive Call (ρ : Type) where
  | set (ty : Ty) (key : String) (value : Value) (options : CallOptions)
  | get (ty : Ty) (key : String) (options : CallOptions)
  | has (key : String) (options : CallOptions)
  | delete (key : String)
  | take (ty : Ty) (item : Item ρ)
  | once (ty : Ty) (item : Item ρ)
  | load (ty : Ty) (item : Item ρ)

namespace Call

/-- The program of a call, without what it answers. -/
def program (s : Setup) : Call ρ → Prog Unit
  | .set ty key v o => (s.set ty key v o).bind fun _ => .done ()
  | .get ty key o => (s.get ty key o).bind fun _ => .done ()
  | .has key o => (s.has key o).bind fun _ => .done ()
  | .delete key => (s.delete key).bind fun _ => .done ()
  | .take ty item => (s.take ty item).bind fun _ => .done ()
  | .once ty item => (s.once ty item).bind fun _ => .done ()
  | .load ty item => (s.load ty item).bind fun _ => .done ()

/-- A call with the options `o` may write at an instant: it skips no tier, stores no native value,
and the clock can represent the deadline of what it writes. -/
def MayWrite (now : Instant) (o : CallOptions) : Prop :=
  o.Ordinary ∧ MemoryStore.Representable now o.lifetime

/-- What is asked of a call at an instant. -/
def Fair (now : Instant) : Call ρ → Prop
  | .set _ _ _ o => MayWrite now o
  | .get _ _ o => o.skip = .none
  | .has _ o => o.skip = .none
  | .delete _ => True
  | .take _ item => MayWrite now item.options
  | .once _ item => MayWrite now item.options
  | .load _ item => MayWrite now item.options

end Call

/-- A call at an instant, with its caller and with what its loader gives. -/
structure Turn (ρ : Type) where
  call : Call ρ
  now : Instant
  caller : Caller
  loaded : Except LoadFailure Value

/-- The visit of a turn. -/
def Turn.visit (t : Turn ρ) : Visit := ⟨t.now, t.caller, some t.loaded⟩

/-- A cache, and what was done to its tiers. -/
structure Course where
  cache : Cache MemoryStore
  deeds : List Deed := []

namespace Course

/-- What a turn does to the tiers. -/
def deedsOf (s : Course) (t : Turn ρ) : List Deed :=
  (t.call.program s.cache.setup).deeds t.visit s.cache

/-- The course after one more turn. -/
def step (s : Course) (t : Turn ρ) : Course where
  cache := ((t.call.program s.cache.setup).visit t.visit s.cache).2
  deeds := s.deeds ++ s.deedsOf t

/-- The bytes that were last written under a key, and not deleted or healed away since. -/
def current (s : Course) (key : String) : Option Bytes :=
  Deed.current s.cache.setup.far key s.deeds

/-- The outcome of reading a key. -/
def read (s : Course) (visit : Visit) (ty : Ty) (key : String) (o : CallOptions) :
    Progress (Except Failure (Option Value)) :=
  ((s.cache.setup.get ty key o).visit visit s.cache).1

end Course

/-- The course of a sequence of turns that begins with a cache. -/
def course (start : Cache MemoryStore) (turns : List (Turn ρ)) : Course :=
  turns.foldl Course.step { cache := start }

/-- One more turn. -/
lemma course_snoc (start : Cache MemoryStore) (turns : List (Turn ρ)) (t : Turn ρ) :
    course start (turns ++ [t]) = (course start turns).step t := by
  rw [course, List.foldl_append]
  rfl

/-! ## The invariant -/

/-- A cache with a tier at least, all of them empty, and with nobody inside a shared run. -/
structure Empty (start : Cache MemoryStore) : Prop where
  tier : start.setup.hasTier = true
  near : ∀ t, start.near = some t → ∃ hash draws size samples ttl t₀,
    NearTier.new hash draws size samples = some t₀ ∧ t = t₀.withTtl ttl
  far : ∀ store, start.far = some store → store = {}
  flights : start.flights = {}

/-- What holds between two calls. -/
structure Settled (start : Cache MemoryStore) (s : Course) : Prop where
  sound : s.cache.Sound
  setup : s.cache.setup = start.setup
  vacant : s.cache.flights.Vacant
  coherent : s.cache.Coherent s.deeds

variable {start : Cache MemoryStore} {turns : List (Turn ρ)} {s : Course} {t : Turn ρ}

/-- A near tier that is new has no entries. -/
lemma nearAt_of_empty (h : Empty start) (key : String) : start.nearAt key = none := by
  cases hnear : start.near with
  | none => exact Cache.nearAt_of_none hnear key
  | some t =>
    obtain ⟨hash, draws, size, samples, ttl, t₀, hnew, rfl⟩ := h.near t hnear
    rw [Cache.nearAt_of_some hnear, NearTier.withTtl]
    split
    · exact NearTier.peek_new hnew key
    · exact NearTier.peek_new hnew key

/-- The invariant holds at first. -/
lemma settled_nil (h : Empty start) : Settled start (course start ([] : List (Turn ρ))) where
  sound t ht := by
    obtain ⟨hash, draws, size, samples, ttl, t₀, hnew, rfl⟩ := h.near t ht
    exact ((NearTier.Reached.new hnew).withTtl ttl).sound
  setup := rfl
  vacant := by
    show start.flights.Vacant
    rw [h.flights]
    exact ⟨Flight.Group.orderly_empty, fun w q k output => Flight.Group.not_sits_empty⟩
  coherent := by
    refine ⟨fun k e he => ?_, fun k held hh => ?_⟩
    · cases (nearAt_of_empty h k).symm.trans he
    · have hh : start.farAt k = some held := hh
      cases hfar : start.far with
      | none => cases (Cache.farAt_of_none hfar k).symm.trans hh
      | some store =>
        obtain rfl := h.far store hfar
        rw [Cache.farAt_of_some hfar] at hh
        simp at hh

/-- **Every call serves**, one case for each kind of call. -/
lemma Settled.serves (h : Settled start s) (htier : start.setup.hasTier = true)
    (hfair : t.call.Fair t.now) :
    (t.call.program s.cache.setup).Serves t.visit s.cache := by
  have htier' : s.cache.setup.hasTier = true := h.setup ▸ htier
  have hloaded : t.visit.loaded.isSome := rfl
  have hplain : ∀ {α : Type} {p : Prog α}, p.Advances t.visit s.cache.setup →
      p.Serves t.visit s.cache :=
    fun hp => hp.serves h.sound rfl h.vacant
  cases hcall : t.call with
  | set ty key v o =>
    rw [hcall] at hfair
    exact (hplain (Setup.set_advances ty key v htier' hfair.1 hfair.2)).map _
  | get ty key o =>
    rw [hcall] at hfair
    exact (hplain (Setup.lookup_advances ty key htier' hfair)).map _
  | has key o =>
    rw [hcall] at hfair
    exact (hplain (Setup.has_advances key hfair)).map _
  | delete key => exact (hplain (Setup.delete_advances key)).map _
  | take ty item =>
    rw [hcall] at hfair
    exact (hplain (Setup.take_advances ty htier' hfair.1 hfair.2 hloaded)).map _
  | once ty item =>
    rw [hcall] at hfair
    exact (Setup.once_serves htier' hfair.1 hfair.2 hloaded h.sound rfl h.vacant).map _
  | load ty item =>
    rw [hcall] at hfair
    refine Prog.Serves.map ?_ _
    unfold Setup.load
    split
    · exact Setup.once_serves htier' hfair.1 hfair.2 hloaded h.sound rfl h.vacant
    · exact hplain (Setup.take_advances ty htier' hfair.1 hfair.2 hloaded)

/-- The invariant survives a call. -/
lemma Settled.step (h : Settled start s) (htier : start.setup.hasTier = true)
    (hfair : t.call.Fair t.now) : Settled start (s.step t) := by
  -- the cache after the call, and what was done
  have hof : ∀ {ds c'}, (t.call.program s.cache.setup).deeds t.visit s.cache = ds →
      ((t.call.program s.cache.setup).visit t.visit s.cache).2 = c' → s.cache.Served ds c' →
      Settled start (s.step t) := by
    rintro ds c' rfl rfl hserved
    exact ⟨hserved.sound, hserved.setup.trans h.setup, hserved.vacant,
      hserved.coherent _ h.coherent⟩
  obtain ⟨ds, c', ⟨⟨a, hdoes⟩, hserved⟩ | ⟨hdoes, hserved⟩⟩ := h.serves htier hfair
  · exact hof hdoes.deeds (congrArg Prod.snd hdoes.visits_finished.progress) hserved
  · exact hof hdoes.deeds (congrArg Prod.snd hdoes.visits_crashed.progress) hserved

/-- The invariant holds after every sequence of calls. -/
lemma settled_course (hempty : Empty start) (hfair : ∀ t ∈ turns, t.call.Fair t.now) :
    Settled start (course start turns) := by
  induction turns using List.reverseRecOn with
  | nil => exact settled_nil hempty
  | append_singleton turns t ih =>
    rw [course_snoc]
    have hbefore : ∀ t' ∈ turns, t'.call.Fair t'.now :=
      fun t' ht' => hfair t' (List.mem_append_left _ ht')
    exact (ih hbefore).step hempty.tier (hfair t (by simp))

/-! ## Reads -/

/-- What is said of reads after a sequence of calls. -/
structure FreshReads (start : Cache MemoryStore) (turns : List (Turn ρ)) : Prop where
  /-- Every call returns or crashes. -/
  ends : ∀ t : Turn ρ, t.call.Fair t.now → ∀ rest,
    ((t.call.program (course start turns).cache.setup).visit t.visit
      (course start turns).cache).1 ≠ .blocked rest
  /-- A read finds nothing, or decodes the current bytes of the key, unless the clock cannot
  represent the deadline of their copy in the near tier. -/
  read : ∀ visit ty key (o : CallOptions), o.skip = .none →
    (course start turns).read visit ty key o = .finished (.error .missing) ∨
      ∃ data, (course start turns).current key = some data ∧
        ((course start turns).read visit ty key o =
            .finished ((Content.stored data).read ty) ∨
          (course start turns).read visit ty key o = .crashed ∧
            ¬ (course start turns).cache.Affords visit.now o.lifetime)
  /-- A write that the far tier refuses changes the current bytes of no key. -/
  refused : ∀ (t : Turn ρ) ty key v o data, t.call = .set ty key v o → t.call.Fair t.now →
    .ask (.write o.condition key data o.lifetime) (.ok false) ∈ (course start turns).deedsOf t →
    ∀ k, (course start (turns ++ [t])).current k = (course start turns).current k
  /-- The entries of both tiers under a key have the same bytes. -/
  agree : ∀ key e held, (course start turns).cache.nearAt key = some e →
    (course start turns).cache.farAt key = some held → e.content = .stored held.data

/-- Reading between two calls. -/
lemma Settled.read (h : Settled start s) (htier : start.setup.hasTier = true) (visit : Visit)
    (ty : Ty) (key : String) {o : CallOptions} (hskip : o.skip = .none) :
    s.read visit ty key o = .finished (.error .missing) ∨
      ∃ data, s.current key = some data ∧
        (s.read visit ty key o = .finished ((Content.stored data).read ty) ∨
          s.read visit ty key o = .crashed ∧ ¬ s.cache.Affords visit.now o.lifetime) := by
  obtain ⟨ds, r, c', hdoes, -, -, hfound, hafford⟩ :=
    Setup.lookup_does visit key ty h.sound rfl (h.setup ▸ htier) hskip
  have hfinished : ∀ a, r = .finished a → s.read visit ty key o = .finished a := by
    rintro a rfl
    exact congrArg Prod.fst hdoes.visits_finished.progress
  cases hfound with
  | missing hnear hfar => exact .inl (hfinished _ rfl)
  | near e he =>
    obtain ⟨data, hcontent, hdata⟩ := h.coherent.near key e he
    refine .inr ⟨data, hdata, .inl ?_⟩
    rw [hfinished _ rfl, hcontent]
  | far held hh => exact .inr ⟨held.data, h.coherent.far key held hh, .inl (hfinished _ rfl)⟩
  | crashed held hh =>
    have hcrashed : s.read visit ty key o = .crashed :=
      congrArg Prod.fst hdoes.visits_crashed.progress
    exact .inr ⟨held.data, h.coherent.far key held hh, .inr ⟨hcrashed, hafford rfl⟩⟩

/-- What a call that writes a value does to the tiers: nothing, a write that is applied, or one that
is refused. -/
lemma deeds_set (visit : Visit) {c : Cache MemoryStore} {ty : Ty} {key : String} {v : Value}
    {o : CallOptions} (hc : c.Sound) (htier : c.setup.hasTier = true)
    (ho : Call.MayWrite visit.now o) {ds : List Deed}
    (hds : ((Call.set ty key v o : Call ρ).program c.setup).deeds visit c = ds) :
    ds = [] ∨ ∃ data, ds = c.setup.writing key (Setup.contentOf ty v data o) data o ∨
      c.setup.far = true ∧ o.condition ≠ .always ∧
        ds = c.setup.refusal key (Setup.contentOf ty v data o) data o := by
  cases hencode : c.setup.envelope.encode ty v with
  | error f =>
    simp only [Call.program, Setup.set, hencode] at hds
    exact .inl hds.symm
  | ok data =>
    simp only [Call.program, Setup.set, hencode] at hds
    rcases Setup.store_does visit key ty v data hc rfl htier ho.1.skip ho.2 with
      ⟨c', hdoes, -⟩ | ⟨c', hfar, hcondition, hdoes, -⟩ | ⟨hdoes, -⟩
    · have hwrote := (hdoes.bind (f := fun _ => .done ()) .done).deeds
      rw [List.append_nil] at hwrote
      exact .inr ⟨data, .inl (hds.symm.trans hwrote)⟩
    · have hrefused := (hdoes.bind (f := fun _ => .done ()) .done).deeds
      rw [List.append_nil] at hrefused
      exact .inr ⟨data, .inr ⟨hfar, hcondition, hds.symm.trans hrefused⟩⟩
    · exact .inl (hds.symm.trans hdoes.bind_crashed.deeds)

/-- A refused write between two calls. -/
lemma Settled.refused (h : Settled start s) (htier : start.setup.hasTier = true) {ty : Ty}
    {key : String} {v : Value} {o : CallOptions} {data : Bytes} (hcall : t.call = .set ty key v o)
    (hfair : t.call.Fair t.now)
    (hmem : .ask (.write o.condition key data o.lifetime) (.ok false) ∈ s.deedsOf t)
    (k : String) : (s.step t).current k = s.current k := by
  have hsetup : (s.step t).cache.setup = s.cache.setup :=
    (h.step htier hfair).setup.trans h.setup.symm
  unfold Course.current
  rw [hsetup]
  show Deed.current s.cache.setup.far k (s.deeds ++ s.deedsOf t) = _
  unfold Course.deedsOf at hmem ⊢
  rw [hcall] at hfair hmem ⊢
  rcases deeds_set t.visit h.sound (h.setup ▸ htier) hfair rfl with
    hnone | ⟨data', hwrote | ⟨hfar, hcondition, hrefused⟩⟩
  · rw [hnone, List.append_nil]
  · -- an applied write is answered otherwise
    rw [hwrote] at hmem
    rcases List.mem_append.mp hmem with hmem | hmem
    · split at hmem
      · cases List.mem_singleton.mp hmem
      · cases hmem
    · split at hmem
      · cases List.mem_singleton.mp hmem
      · cases hmem
  · rw [hrefused]
    exact Setup.current_refusal s.deeds k key _ data' hfar hcondition

/-- **Reads are fresh** after every sequence of calls, at whatever times they are made.

**Proof sketch.** Every call leads from a coherent cache to a coherent one, so that the tiers hold
current bytes only, and a read gives what one of the tiers holds. -/
theorem fresh_reads (start : Cache MemoryStore) (turns : List (Turn ρ)) (hempty : Empty start)
    (hfair : ∀ t ∈ turns, t.call.Fair t.now) : FreshReads start turns where
  ends t ht rest := by
    obtain ⟨ds, c', ⟨⟨a, hdoes⟩, -⟩ | ⟨hdoes, -⟩⟩ :=
      (settled_course hempty hfair).serves hempty.tier ht
    · rw [hdoes.visits_finished.progress]
      simp
    · rw [hdoes.visits_crashed.progress]
      simp
  read visit ty key o hskip := (settled_course hempty hfair).read hempty.tier visit ty key hskip
  refused t ty key v o data hcall ht hmem k := by
    rw [course_snoc]
    exact (settled_course hempty hfair).refused hempty.tier hcall ht hmem k
  agree key e held he hh := (settled_course hempty hfair).coherent.agree he hh

/-- A cache of two empty tiers. -/
def twoTiers : Cache MemoryStore :=
  { near := NearTier.new (fun _ => 0) (fun _ => 0) 64 4096, far := some {} }

/-- The two tiers are empty. -/
lemma empty_twoTiers : Empty twoTiers where
  tier := Bool.or_true _
  near t ht := by
    have hnew : NearTier.new (fun _ => 0) (fun _ => 0) 64 4096 = some t := ht
    exact ⟨_, _, _, _, 0, t, hnew, rfl⟩
  far store hstore := (Option.some.inj hstore).symm
  flights := rfl

/-- A write, and another one that the far tier refuses because of the first. -/
def refusedTurns : List (Turn Unit) :=
  [⟨.set .buffer "k" (.buffer [7]) {}, 0, 0, .ok (.buffer [])⟩,
    ⟨.set .buffer "k" (.buffer [8]) { condition := .ifAbsent }, 1, 0, .ok (.buffer [])⟩]

/-- Reads are fresh after a write and a refused one. -/
theorem fresh_reads_refused :
    Empty twoTiers ∧ (∀ t ∈ refusedTurns, t.call.Fair t.now) ∧
      FreshReads twoTiers refusedTurns := by
  have hfair : ∀ t ∈ refusedTurns, t.call.Fair t.now := by
    intro t ht
    rcases List.mem_pair.mp ht with rfl | rfl
    · exact ⟨⟨rfl, rfl⟩, fun hne => absurd (if_pos (.inl rfl)) hne⟩
    · exact ⟨⟨rfl, rfl⟩, fun hne => absurd (if_pos (.inl rfl)) hne⟩
  exact ⟨empty_twoTiers, hfair, fresh_reads twoTiers refusedTurns empty_twoTiers hfair⟩

end LayeredCache.Serial
