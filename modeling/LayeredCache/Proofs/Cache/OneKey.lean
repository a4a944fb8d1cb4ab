import LayeredCache.Proofs.Cache.Requests
import LayeredCache.Proofs.Far.MemoryStore

/-!
# Programs that name one key

A program that names one key and waits for nobody sees of the tiers only what they hold under that
key, and of the near tier its default lifetime and its random draws. On two caches that agree in
this it does the same, and they agree in it afterwards. How often a key was asked for, which
decides what other keys the near tier gives up, makes no difference to it.

## Main definitions

* `NearTier.face` — what such a program can see of a near tier.
* `Cache.Twins` — two caches agree in what can be seen of them.
* `Prog.OnlyNames` — a program names one key and waits for nobody.

## Main results

* `Prog.OnlyNames.run_twins` — on twins such a program does the same.
* `Prog.OnlyNames.apart` — such a program comes to an end and leaves the shared runs alone.
* `Setup.lookup_onlyNames`, `Setup.heal_onlyNames`, `Setup.store_onlyNames` — the parts of the
  operations are such programs.
-/

set_option autoImplicit false

namespace LayeredCache

open Far

/-! ## What can be seen of a tier -/

namespace NearTier

/-- What can be seen of a near tier under one key. -/
structure Face where
  entry : Option Entry
  defaultTtl : Span
  draws : Nat → Nat
  drawn : Nat

/-- What can be seen of a near tier under a key. -/
def face (key : String) (t : NearTier) : Face :=
  ⟨t.entries.peek key, t.defaultTtl, t.draws, t.drawn⟩

variable {t t' : NearTier} {now : Instant} {key : String} {content : Content} {ttl : Span}

/-- **Looking up** takes an expired entry away and changes nothing else that can be seen. -/
lemma face_get (h : t.Sound) : (t.get now key).2.face key =
    { t.face key with entry := (t.entries.peek key).filter fun e => e.isLive now } := by
  obtain ⟨-, httl, -, hpeek⟩ := h.get now key
  have hdraws : (t.get now key).2.draws = t.draws ∧ (t.get now key).2.drawn = t.drawn := by
    unfold NearTier.get
    split
    · exact ⟨rfl, rfl⟩
    · split <;> exact ⟨rfl, rfl⟩
  have hentry : (t.get now key).2.entries.peek key =
      (t.entries.peek key).filter fun e => e.isLive now := by
    rw [hpeek]
    cases t.entries.peek key with
    | none => simp
    | some e => cases hlive : e.isLive now <;> simp [hlive, Option.filter]
  simp only [face, hentry, httl, hdraws]

/-- **Removing** takes the entry away and changes nothing else that can be seen. -/
lemma face_delete (h : t.Sound) :
    (t.delete key).face key = { t.face key with entry := none } := by
  obtain ⟨-, httl, hpeek⟩ := h.delete key
  have hgone : (t.delete key).entries.peek key = none := (hpeek key).trans (if_pos rfl)
  simp only [face, hgone]
  rfl

/-- **Writing** makes a new entry with the next draw. -/
lemma face_put (h : t.Sound) (hput : t.put now key content ttl = some t') :
    t'.face key = { t.face key with
      entry := some ⟨content, now + jittered t.defaultTtl ttl (t.draws t.drawn)⟩
      drawn := t.drawn + 1 } := by
  have hentry := h.peek_put hput
  have hrest : t'.defaultTtl = t.defaultTtl ∧ t'.draws = t.draws ∧ t'.drawn = t.drawn + 1 := by
    obtain ⟨deadline, -, rfl⟩ := Option.map_eq_some_iff.mp hput
    exact ⟨rfl, rfl, rfl⟩
  simp only [face, hentry, hrest]

variable {u u' : NearTier}

/-- Look-ups find the same in near tiers that look alike. -/
lemma get_congr (now : Instant) (h : t.Sound) (h' : u.Sound)
    (hface : t.face key = u.face key) :
    (t.get now key).1 = (u.get now key).1 ∧
      (t.get now key).2.face key = (u.get now key).2.face key := by
  have hentry : t.entries.peek key = u.entries.peek key := congrArg Face.entry hface
  refine ⟨?_, ?_⟩
  · rw [(h.get now key).2.2.1, (h'.get now key).2.2.1, hentry]
  · rw [face_get h, face_get h', hface, hentry]

/-- Near tiers that look alike take a value both or neither. -/
lemma put_congr (now : Instant) (content : Content) (ttl : Span) (h : t.Sound) (h' : u.Sound)
    (hface : t.face key = u.face key) :
    (t.put now key content ttl = none ∧ u.put now key content ttl = none) ∨
      ∃ t' u', t.put now key content ttl = some t' ∧ u.put now key content ttl = some u' ∧
        t'.face key = u'.face key := by
  have httl : t.defaultTtl = u.defaultTtl := congrArg Face.defaultTtl hface
  have hdraws : t.draws = u.draws := congrArg Face.draws hface
  have hdrawn : t.drawn = u.drawn := congrArg Face.drawn hface
  have hiff : t.put now key content ttl = none ↔ u.put now key content ttl = none := by
    rw [put_eq_none_iff, put_eq_none_iff, httl, hdraws, hdrawn]
  cases hput : t.put now key content ttl with
  | none => exact .inl ⟨rfl, hiff.mp hput⟩
  | some t' =>
    cases hput' : u.put now key content ttl with
    | none => cases (hiff.mpr hput').symm.trans hput
    | some u' =>
      refine .inr ⟨t', u', rfl, rfl, ?_⟩
      rw [face_put h hput, face_put h' hput', hface, httl, hdraws, hdrawn]

end NearTier

namespace Far

/-- A request to the far tier names a key and no other. -/
def Request.OnlyNames (key : String) : Request → Prop
  | .write _ k _ _ => k = key
  | .get k => k = key
  | .delete ks => ks = [key]
  | .ping => True

namespace MemoryStore

/-- **Stores that hold the same under a key** answer a request that names it alike, and hold the
same under it afterwards. -/
lemma answer_congr {s s' : MemoryStore} {key : String} (h : s.entries[key]? = s'.entries[key]?)
    (now : Instant) {r : Request} (hr : r.OnlyNames key) :
    (FarStore.answer s now r).1 = (FarStore.answer s' now r).1 ∧
      (FarStore.answer s now r).2.entries[key]? = (FarStore.answer s' now r).2.entries[key]? := by
  have hlive : s.liveAt now key = s'.liveAt now key := by rw [liveAt, liveAt, h]
  cases r with
  | write condition k data ttl =>
    obtain rfl : k = key := hr
    rw [answer_write, answer_write]
    cases hallows : allows condition (s.liveAt now k).isSome with
    | false =>
      obtain ⟨hfst, hentries⟩ := write_refused data ttl hallows
      obtain ⟨hfst', hentries'⟩ := write_refused data ttl (hlive ▸ hallows)
      exact ⟨by rw [hfst, hfst'], by rw [hentries, hentries', hlive]⟩
    | true =>
      by_cases hrep : Representable now ttl
      · obtain ⟨hfst, hentries⟩ := write_applied data hallows hrep
        obtain ⟨hfst', hentries'⟩ := write_applied data (hlive ▸ hallows) hrep
        exact ⟨by rw [hfst, hfst'], by rw [hentries, hentries', if_pos rfl, if_pos rfl]⟩
      · have hcrashes : ∀ d : MemoryStore, d.liveAt now k = s'.liveAt now k →
            (d.write now condition k data ttl).1 = none ∧
              (d.write now condition k data ttl).2.entries[k]? = s'.liveAt now k := by
          intro d hd
          obtain ⟨hfst, hentries⟩ := write_crashed (hd ▸ hlive ▸ hallows) hrep
          exact ⟨hfst, (hentries k).trans hd⟩
        obtain ⟨hfst, hentries⟩ := hcrashes s hlive
        obtain ⟨hfst', hentries'⟩ := hcrashes s' rfl
        exact ⟨by rw [hfst, hfst'], by rw [hentries, hentries']⟩
  | get k =>
    obtain rfl : k = key := hr
    rw [answer_get, answer_get, entries_get, entries_get, if_pos rfl, if_pos rfl, hlive]
    exact ⟨rfl, rfl⟩
  | delete ks =>
    obtain rfl : ks = [key] := hr
    refine ⟨rfl, ?_⟩
    show (s.delete [key]).entries[key]? = (s'.delete [key]).entries[key]?
    simp [entries_delete]
  | ping => exact ⟨rfl, h⟩

end MemoryStore

end Far

/-! ## What can be seen of a cache -/

namespace Cache

/-- Two sound caches that agree in what a program that names `key` can see of them. -/
structure Twins (key : String) (c c' : Cache MemoryStore) : Prop where
  sound : c.Sound
  sound' : c'.Sound
  near : c.near.map (NearTier.face key) = c'.near.map (NearTier.face key)
  far : c.far.map (fun s => s.entries[key]?) = c'.far.map fun s => s.entries[key]?
  envelope : c.envelope = c'.envelope
  started : c.started = c'.started

namespace Twins

variable {key : String} {c c' c'' : Cache MemoryStore}

lemma refl (h : c.Sound) : Twins key c c := ⟨h, h, rfl, rfl, rfl, rfl⟩

lemma symm (h : Twins key c c') : Twins key c' c :=
  ⟨h.sound', h.sound, h.near.symm, h.far.symm, h.envelope.symm, h.started.symm⟩

lemma trans (h : Twins key c c') (h' : Twins key c' c'') : Twins key c c'' :=
  ⟨h.sound, h'.sound', h.near.trans h'.near, h.far.trans h'.far, h.envelope.trans h'.envelope,
    h.started.trans h'.started⟩

/-- Twins are set up alike. -/
lemma setup (h : Twins key c c') : c'.setup = c.setup := by
  have hnear := congrArg Option.isSome h.near
  have hfar := congrArg Option.isSome h.far
  simp only [Option.isSome_map] at hnear hfar
  rw [Cache.setup, Cache.setup, hnear, hfar, h.envelope]

/-- Twins hold the same under their key in the near tier. -/
lemma nearAt (h : Twins key c c') : c.nearAt key = c'.nearAt key := by
  have hsame : ∀ d : Cache MemoryStore,
      d.nearAt key = (d.near.map (NearTier.face key)).bind NearTier.Face.entry := by
    intro d
    rw [Cache.nearAt, Option.bind_map]
    rfl
  rw [hsame, hsame, h.near]

/-- Twins hold the same under their key in the far tier. -/
lemma farAt (h : Twins key c c') : c.farAt key = c'.farAt key := by
  have hsame : ∀ d : Cache MemoryStore,
      d.farAt key = (d.far.map fun s => s.entries[key]?).bind id := by
    intro d
    rw [Cache.farAt, Option.bind_map]
    rfl
  rw [hsame, hsame, h.far]

/-- The near tiers of twins, when there are any. -/
lemma near_cases (h : Twins key c c') : (c.near = none ∧ c'.near = none) ∨
    ∃ t t', c.near = some t ∧ c'.near = some t' ∧ t.face key = t'.face key := by
  have hnear := h.near
  cases ht : c.near with
  | none =>
    rw [ht] at hnear
    exact .inl ⟨rfl, Option.map_eq_none_iff.mp hnear.symm⟩
  | some t =>
    rw [ht] at hnear
    obtain ⟨t', ht', hface⟩ := Option.map_eq_some_iff.mp hnear.symm
    exact .inr ⟨t, t', rfl, ht', hface.symm⟩

/-- The far tiers of twins, when there are any. -/
lemma far_cases (h : Twins key c c') : (c.far = none ∧ c'.far = none) ∨
    ∃ s s', c.far = some s ∧ c'.far = some s' ∧ s.entries[key]? = s'.entries[key]? := by
  have hfar := h.far
  cases hs : c.far with
  | none =>
    rw [hs] at hfar
    exact .inl ⟨rfl, Option.map_eq_none_iff.mp hfar.symm⟩
  | some s =>
    rw [hs] at hfar
    obtain ⟨s', hs', heq⟩ := Option.map_eq_some_iff.mp hfar.symm
    exact .inr ⟨s, s', rfl, hs', heq.symm⟩

/-- Twins with other near tiers. -/
lemma of_near {t t' : NearTier} (h : Twins key c c') (ht : t.Sound) (ht' : t'.Sound)
    (hface : t.face key = t'.face key) :
    Twins key { c with near := some t } { c' with near := some t' } where
  sound _ hu := Option.some.inj hu ▸ ht
  sound' _ hu := Option.some.inj hu ▸ ht'
  near := congrArg some hface
  far := h.far
  envelope := h.envelope
  started := h.started

/-- Twins with other far tiers. -/
lemma of_far {s s' : MemoryStore} (h : Twins key c c')
    (hentry : s.entries[key]? = s'.entries[key]?) :
    Twins key { c with far := some s } { c' with far := some s' } :=
  { h with far := congrArg some hentry }

/-- Counters and shared runs cannot be seen. -/
lemma of_same {d d' : Cache MemoryStore} (h : Twins key c c') (hnear : d.near = c.near)
    (hnear' : d'.near = c'.near) (hfar : d.far = c.far) (hfar' : d'.far = c'.far)
    (henvelope : d.envelope = c.envelope) (henvelope' : d'.envelope = c'.envelope)
    (hstarted : d.started = c.started) (hstarted' : d'.started = c'.started) : Twins key d d' where
  sound t ht := h.sound t (hnear ▸ ht)
  sound' t ht := h.sound' t (hnear' ▸ ht)
  near := by rw [hnear, hnear', h.near]
  far := by rw [hfar, hfar', h.far]
  envelope := by rw [henvelope, henvelope', h.envelope]
  started := by rw [hstarted, hstarted', h.started]

end Twins

end Cache

/-! ## Programs -/

namespace Prog

/-- A program names a key and no other, and waits neither for a loader nor for another caller. -/
def OnlyNames {α : Type} (key : String) : Prog α → Prop
  | .done _ => True
  | .find k next => k = key ∧ ∀ found, (next found).OnlyNames key
  | .holds k next => k = key ∧ ∀ served, (next served).OnlyNames key
  | .put k _ _ next => k = key ∧ next.OnlyNames key
  | .drop k next => k = key ∧ next.OnlyNames key
  | .call request next => request.OnlyNames key ∧ ∀ r, (next r).OnlyNames key
  | .tally _ next => next.OnlyNames key
  | .count _ next => next.OnlyNames key
  | .startLoad next => next.OnlyNames key
  | .awaitLoad _ => False
  | .join _ _ => False
  | .land _ _ => False

variable {α β : Type} {key : String} {p : Prog α} {f : α → Prog β}

/-- Programs in a row name only a key if both do. -/
lemma OnlyNames.bind (hp : p.OnlyNames key) (hf : ∀ a, (f a).OnlyNames key) :
    (p.bind f).OnlyNames key := by
  induction p with
  | done a => exact hf a
  | find k next ih => exact ⟨hp.1, fun found => ih found (hp.2 found)⟩
  | holds k next ih => exact ⟨hp.1, fun served => ih served (hp.2 served)⟩
  | put k content ttl next ih => exact ⟨hp.1, ih hp.2⟩
  | drop k next ih => exact ⟨hp.1, ih hp.2⟩
  | call request next ih => exact ⟨hp.1, fun r => ih r (hp.2 r)⟩
  | tally found next ih => exact ih hp
  | count event next ih => exact ih hp
  | startLoad next ih => exact ih hp
  | awaitLoad next => exact hp.elim
  | join k next => exact hp.elim
  | land outcome next => exact hp.elim

/-- **A program that waits for nobody** does not stop before its end, and leaves the shared runs
alone. -/
lemma OnlyNames.apart {σ : Type} [FarStore σ] (hp : p.OnlyNames key) (visit : Visit) (c : Cache σ) :
    (p.run visit c).2.flights = c.flights ∧ ∀ rest, (p.run visit c).1 ≠ .blocked rest := by
  induction p generalizing c with
  | done a => exact ⟨rfl, by rintro _ ⟨⟩⟩
  | find k next ih =>
    cases hnear : c.near with
    | none =>
      simp only [run, hnear]
      exact ih none (hp.2 none) c
    | some t =>
      simp only [run, hnear]
      exact ih _ (hp.2 _) _
  | holds k next ih => exact ih _ (hp.2 _) c
  | put k content ttl next ih =>
    cases hnear : c.near with
    | none =>
      simp only [run, hnear]
      exact ih hp.2 c
    | some t =>
      cases hput : t.put visit.now k content ttl with
      | none =>
        simp only [run, hnear, hput]
        exact ⟨trivial, by rintro _ ⟨⟩⟩
      | some t' =>
        simp only [run, hnear, hput]
        exact ih hp.2 _
  | drop k next ih => exact ih hp.2 _
  | call request next ih =>
    cases hfar : c.far with
    | none =>
      simp only [run, hfar]
      exact ih _ (hp.2 _) c
    | some far =>
      simp only [run, hfar]
      cases (FarStore.answer far visit.now request).1 with
      | reply value => exact ih _ (hp.2 _) _
      | failure cause => exact ih _ (hp.2 _) _
      | crash => exact ⟨rfl, by rintro _ ⟨⟩⟩
  | tally found next ih => exact ih hp _
  | count event next ih => exact ih hp _
  | startLoad next ih => exact ih hp _
  | awaitLoad next => exact hp.elim
  | join k next => exact hp.elim
  | land outcome next => exact hp.elim

/-- What two runs come to is alike: they come equally far, and the caches are twins. -/
structure Together (key : String) (x y : Progress α × Cache MemoryStore) : Prop where
  progress : x.1 = y.1
  twins : Cache.Twins key x.2 y.2

/-- **On twins a program that names one key does the same.**

**Proof sketch.** By induction on the program: each request is answered alike, since its answer
depends on what is held under the key, and the tiers hold the same afterwards. -/
theorem OnlyNames.run_twins (hp : p.OnlyNames key) (visit : Visit) {c c' : Cache MemoryStore}
    (h : Cache.Twins key c c') : Together key (p.run visit c) (p.run visit c') := by
  induction p generalizing c c' with
  | done a => exact ⟨rfl, h⟩
  | find k next ih =>
    obtain ⟨rfl, hnext⟩ := hp
    rcases h.near_cases with ⟨hnear, hnear'⟩ | ⟨t, t', hnear, hnear', hface⟩
    · simp only [run, hnear, hnear']
      exact ih none (hnext none) h
    · have ht := h.sound t hnear
      have ht' := h.sound' t' hnear'
      obtain ⟨hfound, hface'⟩ := NearTier.get_congr visit.now ht ht' hface
      simp only [run, hnear, hnear']
      rw [← hfound]
      exact ih _ (hnext _) (h.of_near (ht.get visit.now k).1 (ht'.get visit.now k).1 hface')
  | holds k next ih =>
    obtain ⟨rfl, hnext⟩ := hp
    have hserved : (c.near.any fun t => t.has visit.now k) =
        c'.near.any fun t => t.has visit.now k := by
      rcases h.near_cases with ⟨hnear, hnear'⟩ | ⟨t, t', hnear, hnear', hface⟩
      · rw [hnear, hnear']
      · have hentry : t.entries.peek k = t'.entries.peek k := congrArg NearTier.Face.entry hface
        rw [hnear, hnear', Option.any_some, Option.any_some, NearTier.has, NearTier.has, hentry]
    simp only [run]
    rw [← hserved]
    exact ih _ (hnext _) h
  | put k content ttl next ih =>
    obtain ⟨rfl, hnext⟩ := hp
    rcases h.near_cases with ⟨hnear, hnear'⟩ | ⟨t, t', hnear, hnear', hface⟩
    · simp only [run, hnear, hnear']
      exact ih hnext h
    · have ht := h.sound t hnear
      have ht' := h.sound' t' hnear'
      rcases NearTier.put_congr visit.now content ttl ht ht' hface with
        ⟨hput, hput'⟩ | ⟨u, u', hput, hput', hface'⟩
      · simp only [run, hnear, hnear', hput, hput']
        exact ⟨rfl, h⟩
      · simp only [run, hnear, hnear', hput, hput']
        exact ih hnext (h.of_near (ht.put hput).1 (ht'.put hput').1 hface')
  | drop k next ih =>
    obtain ⟨rfl, hnext⟩ := hp
    simp only [run]
    rcases h.near_cases with ⟨hnear, hnear'⟩ | ⟨t, t', hnear, hnear', hface⟩
    · refine ih hnext (h.of_same ?_ ?_ rfl rfl rfl rfl rfl rfl)
      · rw [Cache.deleteNear, hnear, Option.map_none]
      · rw [Cache.deleteNear, hnear', Option.map_none]
    · have ht := h.sound t hnear
      have ht' := h.sound' t' hnear'
      have hface' : (t.delete k).face k = (t'.delete k).face k := by
        rw [NearTier.face_delete ht, NearTier.face_delete ht', hface]
      simp only [Cache.deleteNear, hnear, hnear', Option.map_some]
      exact ih hnext (h.of_near (ht.delete k).1 (ht'.delete k).1 hface')
  | call request next ih =>
    obtain ⟨hrequest, hnext⟩ := hp
    rcases h.far_cases with ⟨hfar, hfar'⟩ | ⟨s, s', hfar, hfar', hentry⟩
    · simp only [run, hfar, hfar']
      exact ih _ (hnext _) h
    · obtain ⟨hanswer, hentry'⟩ := MemoryStore.answer_congr hentry visit.now hrequest
      have htwins := h.of_far hentry'
      simp only [run, hfar, hfar']
      rw [← hanswer]
      cases (FarStore.answer s visit.now request).1 with
      | reply value => exact ih (.ok value) (hnext _) htwins
      | failure cause => exact ih (.error cause) (hnext _) htwins
      | crash => exact ⟨rfl, htwins⟩
  | tally found next ih => exact ih hp (h.of_same rfl rfl rfl rfl rfl rfl rfl rfl)
  | count event next ih => exact ih hp (h.of_same rfl rfl rfl rfl rfl rfl rfl rfl)
  | startLoad next ih =>
    exact ih hp { h with started := congrArg (fun l => l ++ [visit.caller]) h.started }
  | awaitLoad next => exact hp.elim
  | join k next => exact hp.elim
  | land outcome next => exact hp.elim

end Prog

/-! ## The parts of the operations -/

namespace Setup

variable {ρ : Type} (s : Setup) (ty : Ty) (key : String) (o : CallOptions)

lemma putNear_onlyNames (content : Content) : (s.putNear key content o).OnlyNames key := by
  unfold putNear
  split
  · exact ⟨rfl, trivial⟩
  · trivial

lemma dropNear_onlyNames : (s.dropNear key).OnlyNames key := by
  unfold dropNear
  split
  · exact ⟨rfl, trivial⟩
  · trivial

/-- **Looking up** a key names this key only. -/
lemma lookup_onlyNames : (s.lookup ty key o).OnlyNames key := by
  have hfind : (s.findNear key o).OnlyNames key := by
    unfold findNear
    split
    · exact ⟨rfl, fun _ => trivial⟩
    · trivial
  have hfetch : (s.fetch key o).OnlyNames key := by
    unfold fetch
    split
    · refine ⟨rfl, fun answer => ?_⟩
      cases answer with
      | error f => trivial
      | ok data => exact (putNear_onlyNames s key o _).bind fun _ => trivial
    · trivial
  unfold lookup
  split
  · trivial
  · split
    · trivial
    · refine hfind.bind fun found => ?_
      cases found with
      | some content => trivial
      | none =>
        refine hfetch.bind fun fetched => ?_
        cases fetched <;> trivial

/-- **Dropping an entry** names its key only. -/
lemma heal_onlyNames : (s.heal key o).OnlyNames key := by
  have hcall : ∀ next : Except Failure (Far.Request.delete [key]).Reply →
      Prog (Except Failure Unit), (∀ answer, ∃ r, next answer = .done r) →
      Prog.OnlyNames key
        (if s.far && !o.skip.covers .farOnly then .call (.delete [key]) next
        else .done (.ok ())) := by
    intro next hnext
    split
    · refine ⟨rfl, fun answer => ?_⟩
      obtain ⟨r, hr⟩ := hnext answer
      rw [hr]
      trivial
    · trivial
  show (s.deleteFrom key o.skip).OnlyNames key
  unfold deleteFrom
  dsimp only
  split
  · exact (dropNear_onlyNames s key).bind fun _ =>
      hcall _ fun answer => by cases answer <;> exact ⟨_, rfl⟩
  · exact hcall _ fun answer => by cases answer <;> exact ⟨_, rfl⟩

/-- **Storing** a value names its key only. -/
lemma store_onlyNames (v : Value) (data : Bytes) : (s.store ty key v data o).OnlyNames key := by
  unfold store
  split
  · trivial
  · split
    · trivial
    · refine (putNear_onlyNames s key o _).bind fun _ => ?_
      split
      · refine ⟨rfl, fun answer => ?_⟩
        cases answer with
        | error f => trivial
        | ok applied =>
          dsimp only
          split
          · trivial
          · exact (dropNear_onlyNames s key).bind fun _ => trivial
      · trivial

end Setup

end LayeredCache
