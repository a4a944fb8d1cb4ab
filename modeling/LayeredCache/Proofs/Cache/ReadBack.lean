import LayeredCache.Proofs.Cache.Lifetimes
import LayeredCache.Proofs.Cache.Readable
import LayeredCache.Proofs.Cache.Storing

/-!
# Reading back what was written

A call that stores a value and ends well promises something to the next look-up of the key. When the
write was applied, a look-up that leaves the same tiers alone gives the value, for as long as what
was stored is not expired, whether the near tier was full, the value was kept as it is or encoded,
and whatever the condition was. When the far tier refused the write, the value is nowhere: a look-up
gives what the far tier holds.

## Main definitions

* `Cache.farReply?` — what the far tier says to a request.
* `Cache.Takes` — the write of a call is applied.
* `Setup.ReadsBack` — what storing a value promises to the next look-up.

## Main results

* `Setup.lookup_near_run`, `Setup.lookup_far_run` — look-ups, whichever tiers they leave alone.
* `Setup.reads_back` — storing a value keeps its promise in every cache that is reached.
-/

set_option autoImplicit false

namespace LayeredCache

open Far

/-! ## Values whose stored form is not empty -/

/-- Literals can be written and not read. -/
lemma Envelope.decode_literal {data : Bytes} (hdata : data ≠ []) (v : Value) :
    Envelope.decode (.scalar .literal) data ≠ .ok (some v) := by
  have hread : ∀ payload, Ty.read (.scalar .literal) payload = none := by
    intro payload
    unfold Ty.read Ty.readFrom MessagePack.Reader.valueWith
    cases MessagePack.Token.read payload with
    | none => rfl
    | some found => rfl
  intro hdecode
  unfold Envelope.decode at hdecode
  rw [if_neg (by simpa using hdata)] at hdecode
  cases hunwrap : Envelope.unwrap data with
  | error fault => simp [hunwrap] at hdecode
  | ok payload => simp [hunwrap, hread] at hdecode

namespace Envelope.Keeps

variable {e : Envelope} {ty : Ty} {v : Value} {data : Bytes}

/-- **What the near tier holds** for a value is read as the value. -/
lemma read_contentOf (h : e.Keeps ty v data) (hdata : data ≠ []) (o : CallOptions) :
    (Setup.contentOf ty v data o).read ty = .ok (some v) := by
  have hdecode := h.decode.resolve_left hdata
  unfold Setup.contentOf
  cases o.raw with
  | true =>
    have hty : ty ≠ .scalar .literal := by
      rintro rfl
      exact decode_literal hdata v hdecode
    rw [if_pos rfl, Content.read, Native.extract_of hty h.admits]
  | false =>
    rw [if_neg Bool.false_ne_true, h.read, keptOf, if_neg hdata]

end Envelope.Keeps

/-! ## Look-ups -/

namespace Setup

section NearTier

variable {σ : Type} [FarStore σ] {s : Setup} {o : CallOptions} {c : Cache σ}

/-- **A look-up that the near tier serves** reads the content of its entry. -/
lemma lookup_near_run {e : Entry} (visit : Visit) (ty : Ty) (key : String) (hc : c.Sound)
    (hs : c.setup = s) (huses : s.usesNear o = true) (he : c.nearLive visit.now key = some e) :
    ((s.lookup ty key o).run visit c).1 = .finished (e.content.read ty) := by
  obtain ⟨htier, hskip⟩ := hasTier_of_uses (.inl huses)
  obtain ⟨c', hdoes, -, -⟩ := findNear_seeks (o := o) visit key hc hs
  rw [huses, if_pos rfl, he] at hdoes
  unfold lookup
  rw [hskip, htier]
  simp only [Bool.not_true, Bool.false_eq_true, if_false, Bind.bind, Prog.run_bind, hdoes.run]
  rfl

end NearTier

section FarTier

variable {s : Setup} {o : CallOptions} {c : Cache MemoryStore}

/-- **A look-up that the near tier does not serve** reads what the far tier serves.

**Proof sketch.** Nothing is found in the near tier. What is found in the far tier is copied into
the near tier, if the call uses this tier, and then the clock can represent the deadline. -/
lemma lookup_far_run (visit : Visit) (ty : Ty) (key : String) (hc : c.Sound) (hs : c.setup = s)
    (huses : s.usesFar o = true)
    (hstale : s.usesNear o = true → c.nearLive visit.now key = none)
    (hafford : s.usesNear o = true → c.Affords visit.now o.lifetime) :
    ((s.lookup ty key o).run visit c).1 = .finished
      (match c.farLive visit.now key with
      | some h => (Content.stored h.data).read ty
      | none => .error .missing) := by
  obtain ⟨htier, hcovers⟩ := hasTier_of_uses (.inr huses)
  obtain ⟨c₁, hsearched, hfar, -, hrun⟩ := lookup_far ty htier hcovers hc hs hstale
  have hs₁ : c₁.setup = s := hsearched.setup.trans hs
  have hlive : c₁.farLive visit.now key = c.farLive visit.now key := by
    rw [Cache.farLive, Cache.farLive, Cache.farAt_congr hfar]
  rw [hrun, Prog.run_bind]
  cases hheld : c.farLive visit.now key with
  | none =>
    obtain ⟨c', hfetch, -⟩ := fetch_missing (o := o) hsearched.sound hs₁ fun _ => hlive.trans hheld
    rw [hfetch]
    rfl
  | some h =>
    obtain ⟨c₂, halike, -, -, hfetch⟩ := fetch_found hsearched.sound huses (hlive.trans hheld)
    have hmake := hsearched.toAlike.trans halike
    rw [hfetch, Prog.run_bind]
    rcases putNear_lays (o := o) visit key (.stored h.data) (hmake.setup.trans hs) with
      ⟨c₃, hput, -⟩ | ⟨t, hnear, ht, hput, -⟩
    · rw [hput.run]
      rfl
    · have hafford₂ := (Cache.affords_congr hmake.ttl).mpr (hafford hnear)
      exact absurd hput (NearTier.put_ne_none (hafford₂ t ht) key _)

end FarTier

end Setup

/-! ## Writes and what is read after them -/

/-- What the far tier of a cache says to a request, if there is one. -/
def Cache.farReply? (c : Cache MemoryStore) (now : Instant) (request : Request) :
    Option (Answer request) :=
  c.far.map fun store => (FarStore.answer store now request).1

/-- The write of a call is applied: it has no condition, it concerns the near tier only, or the far
tier accepts it. -/
def Cache.Takes (c : Cache MemoryStore) (now : Instant) (key : String) (data : Bytes)
    (o : CallOptions) : Prop :=
  o.condition = .always ∨ c.setup.usesFar o = false ∨
    c.farReply? now (.write o.condition key data o.lifetime) = some (.reply true)

/-- What a call that stores a value `v` of type `ty`, whose stored form is `data`, promises to the
next look-up of the key at this type. -/
structure Setup.ReadsBack (c : Cache MemoryStore) (visit : Visit) (ty : Ty) (key : String)
    (v : Value) (data : Bytes) (o : CallOptions) : Prop where
  /-- It ends well when the clock can represent the deadlines in the tiers that it uses. -/
  ends : (c.setup.usesFar o = true → MemoryStore.Representable visit.now o.lifetime) →
    (c.setup.usesNear o = true → c.Affords visit.now o.lifetime) →
      ((c.setup.set ty key v o).visit visit c).1 = .finished (.ok ())
  /-- When it ends well and the write is applied, a look-up that leaves the same tiers alone gives
  the value, as long as what the tiers that it uses hold under the key is not expired. -/
  applied : ∀ c', (c.setup.set ty key v o).visit visit c = (.finished (.ok ()), c') →
    c.Takes visit.now key data o → ∀ visit' o', o'.skip = o.skip →
      (c.setup.usesNear o = true → ∀ e, c'.nearAt key = some e → e.isLive visit'.now = true) →
      (c.setup.usesFar o = true → ∀ h, c'.farAt key = some h → h.isExpired visit'.now = false) →
        ((c'.setup.get ty key o').visit visit' c').1 = .finished (.ok (some v))
  /-- When it ends well and the far tier refuses the write, a look-up reads what the far tier serves
  then. -/
  refused : ∀ c', (c.setup.set ty key v o).visit visit c = (.finished (.ok ()), c') →
    o.skip = .none → o.condition ≠ .always →
    c.farReply? visit.now (.write o.condition key data o.lifetime) = some (.reply false) →
      ∀ visit' o', o'.skip = .none → c'.Affords visit'.now o'.lifetime →
        ((c'.setup.get ty key o').visit visit' c').1 = .finished
          (match c'.farLive visit'.now key with
          | some h => (Content.stored h.data).read ty
          | none => .error .missing)

namespace Setup

variable {c c' : Cache MemoryStore} {visit : Visit} {ty : Ty} {key : String} {v : Value}
  {data : Bytes} {o o' : CallOptions}

/-- Which tiers a call uses depends on what it leaves alone only. -/
lemma uses_congr {s : Setup} (h : o'.skip = o.skip) :
    s.usesNear o' = s.usesNear o ∧ s.usesFar o' = s.usesFar o := by
  rw [usesNear, usesNear, usesFar, usesFar, h]
  exact ⟨rfl, rfl⟩

/-- **A look-up gives a value** when the near tier serves it, or the call leaves this tier alone and
the far tier serves it. -/
lemma get_of_served (hc : c.Sound)
    (huses : c.setup.usesNear o = true ∨ c.setup.usesFar o = true)
    (hnear : c.setup.usesNear o = true →
      ∃ e, c.nearLive visit.now key = some e ∧ e.content.read ty = .ok (some v))
    (hfar : c.setup.usesFar o = true →
      ∃ h, c.farLive visit.now key = some h ∧ (Content.stored h.data).read ty = .ok (some v)) :
    ((c.setup.get ty key o).visit visit c).1 = .finished (.ok (some v)) := by
  cases hyes : c.setup.usesNear o with
  | true =>
    obtain ⟨e, he, hread⟩ := hnear hyes
    exact Prog.visit_of_run ((lookup_near_run visit ty key hc rfl hyes he).trans (by rw [hread]))
  | false =>
    have hthere := huses.resolve_left (by simp [hyes])
    obtain ⟨h, hh, hread⟩ := hfar hthere
    have hrun := lookup_far_run visit ty key hc rfl hthere (by simp [hyes]) (by simp [hyes])
    rw [hh] at hrun
    exact Prog.visit_of_run (hrun.trans (by rw [← hread]))

/-! ## The ends over a store in memory -/

/-- The far tier is a store in memory, which answers a write whose deadline can be represented with
whether it took it. -/
lemma StoreEnds.ends_well {s : Setup} {content : Content} {r : Progress (Except Failure Unit)}
    (h : s.StoreEnds visit key content data o c r c')
    (hrep : s.usesFar o = true → MemoryStore.Representable visit.now o.lifetime)
    (hafford : s.usesNear o = true → c.Affords visit.now o.lifetime) : r = .finished (.ok ()) := by
  have hreply : ∀ store : MemoryStore, s.usesFar o = true → ∃ yes,
      (FarStore.answer store visit.now (.write o.condition key data o.lifetime)).1 = .reply yes :=
    fun _ uses => ⟨_, MemoryStore.answer_write_of_representable (hrep uses)⟩
  cases h with
  | nearCrashed uses near put =>
    exact absurd put (NearTier.put_ne_none (hafford uses _ near) key _)
  | alone => rfl
  | farCrashed _ uses _ answer =>
    obtain ⟨yes, hyes⟩ := hreply _ uses
    cases (congrArg Prod.fst answer).symm.trans hyes
  | failed _ uses _ answer =>
    obtain ⟨yes, hyes⟩ := hreply _ uses
    cases (congrArg Prod.fst answer).symm.trans hyes
  | applied => rfl
  | refused => rfl

/-- **A write that is applied** gives each tier that the call uses a new entry for the value, with a
deadline to come. -/
lemma StoreEnds.fresh (h : c.setup.StoreEnds visit key (contentOf ty v data o) data o c
      (.finished (.ok ())) c') (hc : c.Reached) (htakes : c.Takes visit.now key data o) :
    c'.setup = c.setup ∧
      (c.setup.usesNear o = true → ∃ deadline, visit.now < deadline ∧
        c'.nearAt key = some ⟨contentOf ty v data o, deadline⟩) ∧
      (c.setup.usesFar o = true → c'.farAt key =
        some ⟨data, if o.lifetime = 0 then none else some (visit.now + o.lifetime)⟩) := by
  cases h with
  | alone laid unused =>
    refine ⟨(laid.kept hc.sound).1.setup, fun uses => laid.here hc uses, fun uses => ?_⟩
    cases uses.symm.trans unused
  | @applied c₁ store store' yes laid _ there answer taken =>
    obtain ⟨hkept, hfar₁⟩ := laid.kept hc.sound
    have hkept' := hkept.trans (.of_far hkept.sound (hfar₁.trans there) store')
    obtain rfl : yes = true := by
      rcases taken with hyes | halways
      · exact hyes
      · rw [halways] at answer
        by_contra hno
        rw [Bool.eq_false_iff.mpr hno] at answer
        exact MemoryStore.answer_write_always_ne _ _ _ _ _ (congrArg Prod.fst answer)
    refine ⟨hkept'.setup, fun uses => laid.here hc uses, fun _ => ?_⟩
    have hentry := MemoryStore.entry_of_applied (congrArg Prod.fst answer)
    rw [answer] at hentry
    exact (Cache.farAt_of_some rfl key).trans hentry
  | refused laid uses there answer conditional =>
    rcases htakes with halways | hunused | haccepted
    · exact absurd halways conditional
    · cases uses.symm.trans hunused
    · rw [Cache.farReply?, there, Option.map_some, answer] at haccepted
      cases haccepted

/-- **After a write that is applied** each tier that the call uses has an entry for the value. -/
lemma StoreEnds.entries (h : c.setup.StoreEnds visit key (contentOf ty v data o) data o c
      (.finished (.ok ())) c') (hc : c.Reached) (htakes : c.Takes visit.now key data o) :
    c'.setup = c.setup ∧
      (c.setup.usesNear o = true →
        ∃ deadline, c'.nearAt key = some ⟨contentOf ty v data o, deadline⟩) ∧
      (c.setup.usesFar o = true → ∃ held, c'.farAt key = some held ∧ held.data = data) := by
  obtain ⟨hs', hnear, hfar⟩ := h.fresh hc htakes
  refine ⟨hs', fun uses => ?_, fun uses => ⟨_, hfar uses, rfl⟩⟩
  obtain ⟨deadline, -, he⟩ := hnear uses
  exact ⟨deadline, he⟩

/-- **After a write that is refused** the near tier has nothing under the key. -/
lemma StoreEnds.nearAt_eq_none {s : Setup} {content : Content}
    (h : s.StoreEnds visit key content data o c (.finished (.ok ())) c')
    (hc : c.Sound) (huses : s.usesFar o = true) (hconditional : o.condition ≠ .always)
    (hrefused : c.farReply? visit.now (.write o.condition key data o.lifetime) =
      some (.reply false)) : c'.setup = c.setup ∧ c'.nearAt key = none := by
  cases h with
  | alone _ unused => cases huses.symm.trans unused
  | applied _ _ there answer taken =>
    rw [Cache.farReply?, there, Option.map_some, answer] at hrefused
    obtain rfl := Answer.reply.inj (Option.some.inj hrefused)
    exact absurd taken (by simpa using hconditional)
  | @refused c₁ store store' laid _ there _ _ =>
    obtain ⟨hkept, hfar₁⟩ := laid.kept hc
    have hkept' := hkept.trans (.of_far hkept.sound (hfar₁.trans there) store')
    refine ⟨(hkept'.trans (.of_deleteNear hkept'.sound key)).setup, ?_⟩
    rw [Cache.nearAt_deleteNear hkept'.sound, if_pos rfl]

/-- **Reading back**: in every cache that is reached, storing a value whose stored form is not empty
and decodes to the value keeps its promise to the next look-up, whichever of the tiers the call
uses.

**Proof sketch.** By the end that storing comes to (`store_ends`). When the write is applied, each
tier that the call uses has an entry for the value (`StoreEnds.entries`). When it is refused, the
near tier has forgotten the key (`StoreEnds.nearAt_eq_none`). -/
theorem reads_back (hc : c.Reached) (hkeeps : c.envelope.Keeps ty v data) (hdata : data ≠ [])
    (huses : c.setup.usesNear o = true ∨ c.setup.usesFar o = true) (visit : Visit)
    (key : String) : ReadsBack c visit ty key v data o := by
  have hset : c.setup.set ty key v o = c.setup.store ty key v data o := set_eq_store hkeeps.encode
  have hends := store_ends visit ty key v data hc.sound rfl huses
  have hends' : ∀ c', (c.setup.set ty key v o).visit visit c = (.finished (.ok ()), c') →
      c'.Sound ∧ c.setup.StoreEnds visit key (contentOf ty v data o) data o c
        (.finished (.ok ())) c' := by
    intro c' hfinished
    have hc' := (hc.visit visit (c.setup.set ty key v o)).sound
    rw [hfinished] at hc'
    rw [hset, Prog.visit_eq_finished_iff] at hfinished
    rw [hfinished] at hends
    exact ⟨hc', hends⟩
  refine ⟨fun hrep hafford => ?_, fun c' hfinished htakes visit' o' hskip hnear hfar => ?_,
    fun c' hfinished hskip hconditional hrefused visit' o' hskip' hafford => ?_⟩
  · rw [hset]
    exact Prog.visit_of_run (hends.ends_well hrep hafford)
  · obtain ⟨hc', hstored⟩ := hends' c' hfinished
    obtain ⟨hs', hhere, hthere⟩ := hstored.entries hc htakes
    obtain ⟨husesNear, husesFar⟩ := uses_congr (s := c.setup) hskip
    refine get_of_served hc' ?_ (fun uses => ?_) fun uses => ?_
    · rw [hs', husesNear, husesFar]
      exact huses
    · rw [hs', husesNear] at uses
      obtain ⟨deadline, he⟩ := hhere uses
      exact ⟨_, Cache.nearLive_eq_some.mpr ⟨he, hnear uses _ he⟩, hkeeps.read_contentOf hdata o⟩
    · rw [hs', husesFar] at uses
      obtain ⟨held, hh, rfl⟩ := hthere uses
      refine ⟨held, Cache.farLive_eq_some.mpr ⟨hh, hfar uses held hh⟩, ?_⟩
      rw [hkeeps.read, keptOf, if_neg hdata]
  · obtain ⟨hc', hstored⟩ := hends' c' hfinished
    have hfar : c.setup.usesFar o = true := by
      rw [usesFar_eq hskip]
      obtain ⟨store, there, -⟩ := Option.map_eq_some_iff.mp hrefused
      exact Cache.far_eq_true rfl there
    obtain ⟨hs', hgone⟩ := hstored.nearAt_eq_none hc.sound hfar hconditional hrefused
    have hfar' : c'.setup.usesFar o' = true := by
      rw [hs', usesFar_eq hskip', ← usesFar_eq hskip]
      exact hfar
    refine Prog.visit_of_run (lookup_far_run visit' ty key hc' rfl hfar' (fun _ => ?_)
      fun _ => hafford)
    rw [Cache.nearLive, hgone]
    rfl

/-- A cache of two empty tiers, of which the near one has room for a single entry. -/
def narrowTiers : Cache MemoryStore :=
  { near := NearTier.new (fun _ => 0) (fun _ => 0) 1 0, far := some {} }

/-- A value that is kept as it is, under a condition, is read back from the two tiers, and the call
that stores it ends well. -/
theorem reads_back_narrow :
    narrowTiers.Reached ∧ narrowTiers.envelope.Keeps (.scalar (.int .int64)) (.int 7) [7, 0] ∧
      ReadsBack narrowTiers ⟨0, 0, none⟩ (.scalar (.int .int64)) "k" (.int 7) [7, 0]
        { raw := true, condition := .ifAbsent } ∧
      ((narrowTiers.setup.set (.scalar (.int .int64)) "k" (.int 7)
        { raw := true, condition := .ifAbsent }).visit ⟨0, 0, none⟩ narrowTiers).1 =
          .finished (.ok ()) := by
  have hnear : narrowTiers.near = NearTier.new (fun _ => 0) (fun _ => 0) 1 0 := rfl
  have hkeeps : narrowTiers.envelope.Keeps (.scalar (.int .int64)) (.int 7) [7, 0] :=
    ⟨rfl, rfl, .inr rfl⟩
  have hback := reads_back (o := { raw := true, condition := .ifAbsent }) (.of_new hnear) hkeeps
    (by decide) (.inr rfl) ⟨0, 0, none⟩ "k"
  exact ⟨.of_new hnear, hkeeps, hback,
    hback.ends (fun _ h => absurd rfl h) fun _ => Cache.affords_new hnear⟩

end Setup

end LayeredCache
