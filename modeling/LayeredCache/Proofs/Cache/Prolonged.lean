import LayeredCache.Proofs.Cache.Lifetimes

/-!
# Look-ups prolong what they find

What a write or a copy makes of the entries under its key, when the clock can represent the
deadlines and both tiers are there. A copy is as good as a write: it lasts as long as the options of
the look-up say.

## Main results

* `Setup.lookup_prolongs` — what a look-up copies lasts for the lifetime of the look-up.
* `Setup.set_settles` — a write, which the far tier accepts or refuses.
-/

set_option autoImplicit false

namespace LayeredCache

open Far

namespace Setup

variable {s : Setup} {o : CallOptions} {visit : Visit} {key : String} {ty : Ty}
  {c : Cache MemoryStore}

/-- A cache in whose near tier a content was put under a key, to last nine tenths of its longest
lifetime at least. -/
structure Shelved (c : Cache MemoryStore) (now : Instant) (key : String) (content : Content)
    (o : CallOptions) (c' : Cache MemoryStore) : Prop extends Cache.Alike c c' where
  far : c'.far = c.far
  entry : ∃ e, c'.nearAt key = some e ∧ e.content = content ∧
    now + (c.longest o.lifetime - c.longest o.lifetime / 10) ≤ e.deadline

/-- A write into the near tier whose deadline can be represented. -/
lemma putNear_shelves (visit : Visit) (key : String) (content : Content)
    (hskip : o.skip = .none) (hc : c.Sound)
    (hs : c.setup = s) (hnear : s.near = true) (hafford : c.Affords visit.now o.lifetime) :
    ∃ c', (s.putNear key content o).run visit c = (.finished (), c') ∧
      Shelved c visit.now key content o c' := by
  rcases putNear_lays (o := o) visit key content hs with
    ⟨c₁, hdoes, hlaid⟩ | ⟨t, -, ht, hput, -⟩
  · obtain ⟨hkept, hfar⟩ := hlaid.kept hc
    cases hlaid with
    | skipped hunused => cases hnear.symm.trans ((usesNear_eq hskip).symm.trans hunused)
    | written _ ht hput =>
      refine ⟨_, hdoes.run, .of_kept hkept, hfar, _, (hc _ ht).peek_put hput, rfl,
        Nat.add_le_add_left ?_ visit.now⟩
      rw [Cache.longest, ht]
      exact NearTier.le_jittered _ _ _
  · exact absurd hput (NearTier.put_ne_none (hafford t ht) key content)

/-- **A look-up prolongs what it finds.** When only the far tier serves a key, a look-up copies the
value into the near tier, where it lasts for nine tenths at least of the lifetime that the options
of the look-up name, however little of its lifetime in the far tier is left. -/
theorem lookup_prolongs {h : Held} (visit : Visit) (ty : Ty) (hskip : o.skip = .none)
    (hc : c.Sound) (hs : c.setup = s) (hnear : s.near = true)
    (hnone : c.nearLive visit.now key = none) (hheld : c.farLive visit.now key = some h)
    (hafford : c.Affords visit.now o.lifetime) :
    ∃ c' e, (s.lookup ty key o).run visit c =
        (.finished ((Content.stored h.data).read ty), c') ∧ c.Searched visit.now key o c' ∧
      c'.nearAt key = some e ∧ e.content = .stored h.data ∧
      visit.now + (c.longest o.lifetime - c.longest o.lifetime / 10) ≤ e.deadline := by
  have htier : s.hasTier = true := by rw [hasTier, hnear, Bool.true_or]
  have hsearched := (lookup_finds visit ty key htier hskip hc hs).1
  obtain ⟨c₁, hfirst, hfar₁, -, hrun⟩ :=
    lookup_far ty htier (not_covers_all hskip) hc hs fun _ => hnone
  have hheld₁ : c₁.farLive visit.now key = some h := by
    rw [Cache.farLive, Cache.farAt_congr hfar₁]
    exact hheld
  have huses : s.usesFar o = true := by
    rw [usesFar_eq hskip]
    exact Cache.far_eq_true_of_served hs hheld
  obtain ⟨c₂, halike, -, -, hfetch⟩ :=
    fetch_found hfirst.sound huses hheld₁
  have hmake : c.Alike c₂ := hfirst.toAlike.trans halike
  have hafford₂ : c₂.Affords visit.now o.lifetime := (Cache.affords_congr hmake.ttl).mpr hafford
  obtain ⟨c', hput, hshelved⟩ := putNear_shelves visit key (.stored h.data) hskip hmake.sound
    (hmake.setup.trans hs) hnear hafford₂
  have hall : (s.lookup ty key o).run visit c =
      (.finished ((Content.stored h.data).read ty), c') := by
    rw [hrun, Prog.run_bind, hfetch, Prog.run_bind, hput]
    rfl
  obtain ⟨e, he, hcontent, hdeadline⟩ := hshelved.entry
  rw [hmake.longest_eq] at hdeadline
  rw [hall] at hsearched
  exact ⟨c', e, hall, hsearched, he, hcontent, hdeadline⟩

/-- The far tier after a write whose condition allows it, or does not. -/
lemma callWrite_run {α : Type} (visit : Visit) (key : String) (data : Bytes)
    {next : Except Failure Bool → Prog α} (hfar : s.far = true) (hs : c.setup = s) (hc : c.Sound)
    (hrep : MemoryStore.Representable visit.now o.lifetime) :
    ∃ c₁ : Cache MemoryStore, c.Alike c₁ ∧ c₁.near = c.near ∧
      c₁.farAt key = (if MemoryStore.allows o.condition (c.farLive visit.now key).isSome
        then some (heldOf o visit.now data) else c.farLive visit.now key) ∧
      (Prog.call (.write o.condition key data o.lifetime) next).run visit c =
        (next (.ok (MemoryStore.allows o.condition (c.farLive visit.now key).isSome))).run
          visit c₁ := by
  cases hstore : c.far with
  | none => cases hfar.symm.trans (Cache.far_eq_false hs hstore)
  | some store =>
    have hlive : c.farLive visit.now key = store.liveAt visit.now key := by
      rw [Cache.farLive, Cache.farAt_of_some hstore]
      rfl
    rw [hlive]
    have hkept := Cache.Kept.of_far hc hstore
    simp only [Prog.run, hstore, MemoryStore.answer_write]
    cases hallows : MemoryStore.allows o.condition (store.liveAt visit.now key).isSome with
    | true =>
      obtain ⟨happlied, hentries⟩ := MemoryStore.write_applied data hallows hrep
      rw [happlied]
      exact ⟨_, .of_kept (hkept _), rfl, (hentries key).trans (if_pos rfl), rfl⟩
    | false =>
      obtain ⟨hrefused, hentries⟩ := MemoryStore.write_refused data o.lifetime hallows
      rw [hrefused]
      exact ⟨_, .of_kept (hkept _), rfl, hentries key, rfl⟩

/-- **A write into both tiers** whose deadlines can be represented: the far tier has the new entry
or, when the condition of the write does not allow it, what it served before, and then the near tier
has nothing under the key. -/
theorem set_settles {v : Value} {data : Bytes} (visit : Visit) (key : String)
    (hskip : o.skip = .none) (hc : c.Sound) (hs : c.setup = s) (hnear : s.near = true)
    (hfar : s.far = true)
    (hafford : c.Affords visit.now o.lifetime)
    (hrep : MemoryStore.Representable visit.now o.lifetime)
    (hencode : s.envelope.encode ty v = .ok data) :
    ∃ c', (s.set ty key v o).run visit c = (.finished (.ok ()), c') ∧ c.Alike c' ∧
      c'.farAt key = (if MemoryStore.allows o.condition (c.farLive visit.now key).isSome
        then some (heldOf o visit.now data) else c.farLive visit.now key) ∧
      (MemoryStore.allows o.condition (c.farLive visit.now key).isSome = false →
        c'.nearAt key = none) := by
  have htier : s.hasTier = true := by rw [hasTier, hnear, Bool.true_or]
  obtain ⟨c₁, hput, hshelved⟩ := putNear_shelves visit key (contentOf ty v data o) hskip hc hs
    hnear hafford
  have hs₁ : c₁.setup = s := hshelved.setup.trans hs
  have hlive : c₁.farLive visit.now key = c.farLive visit.now key := by
    rw [Cache.farLive, Cache.farLive, Cache.farAt_congr hshelved.far]
  have hrun : ∃ next : Except Failure Bool → Prog (Except Failure Unit),
      (∀ applied, next (.ok applied) =
        if applied || o.condition == .always then .done (.ok ())
        else (s.dropNear key).bind fun _ => .done (.ok ())) ∧
      (s.set ty key v o).run visit c =
        Prog.run visit (.call (.write o.condition key data o.lifetime) next) c₁ := by
    rw [set_eq_store hencode, store, not_covers_all hskip, if_neg Bool.false_ne_true, htier,
      usesFar_eq hskip, hfar]
    show ∃ next : Except Failure Bool → Prog (Except Failure Unit), _ ∧
      Prog.run visit ((s.putNear key (contentOf ty v data o) o).bind _) c = _
    rw [Prog.run_bind, hput]
    simp only [Prog.resume, if_true]
    exact ⟨_, fun _ => rfl, rfl⟩
  obtain ⟨next, hnext, hrun⟩ := hrun
  obtain ⟨c₂, halike, hnear₂, hfar₂, hcall⟩ :=
    callWrite_run visit key data hfar hs₁ hshelved.sound hrep
  rw [hrun, hcall, hlive, hnext]
  rw [hlive] at hfar₂
  cases hallows : MemoryStore.allows o.condition (c.farLive visit.now key).isSome with
  | true =>
    rw [hallows] at hfar₂
    exact ⟨c₂, rfl, hshelved.toAlike.trans halike, hfar₂, fun h => by cases h⟩
  | false =>
    rw [hallows] at hfar₂
    have hcondition : (o.condition == .always) = false := by
      cases hcond : o.condition with
      | always =>
        rw [hcond] at hallows
        cases hallows
      | ifPresent => rfl
      | ifAbsent => rfl
    have hdrop := dropNear_does visit key (halike.setup.trans hs₁)
    have hforgotten := forgotten_deleteNear halike.sound key
    refine ⟨_, ?_, (hshelved.toAlike.trans halike).trans
      ⟨hforgotten.sound, hforgotten.setup, hforgotten.ttl⟩, ?_, fun _ => ?_⟩
    · rw [hcondition, Bool.or_false, if_neg Bool.false_ne_true, Prog.run_bind, hdrop.run]
      rfl
    · exact (Cache.farAt_congr hforgotten.far key).trans hfar₂
    · rw [Cache.nearAt_deleteNear halike.sound, if_pos rfl]

end Setup

end LayeredCache
