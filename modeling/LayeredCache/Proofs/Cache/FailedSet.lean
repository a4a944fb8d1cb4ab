import LayeredCache.Far.Drill
import LayeredCache.Proofs.Cache.ReadBack

/-!
# What a failed write leaves behind

A call that sets a value writes into the near tier before it asks the far tier, and when the far
tier fails it returns the failure at once. What it wrote into the near tier stays there, unlike
after a write that the far tier refuses, and is served to later look-ups. Here the near tier after a
failed call is described over any far tier: either nothing of it changed, because the value has no
stored form or the call leaves this tier alone, or it is the tier of a call that ended well.

## Main definitions

* `Setup.LeftBehind` — what a failed call leaves in the near tier.

## Main results

* `Setup.set_failed_cases` — how far a failed call came.
* `Setup.left_behind` — what failed calls leave in the near tier, in every cache that is reached.
* `Setup.failed_value_served` — a value whose writing failed is served.
-/

set_option autoImplicit false

namespace LayeredCache

open Far

namespace Setup

section AnyFarTier

variable {σ : Type} [FarStore σ] {c c' : Cache σ} {s : Setup} {visit : Visit} {ty : Ty}
  {key : String} {v : Value} {content : Content} {data : Bytes} {o : CallOptions} {f : Failure}

/-- Storing a value in no tier leaves the cache alone. -/
lemma store_unused (visit : Visit) (ty : Ty) (key : String) (v : Value) (data : Bytes) (c : Cache σ)
    (hnear : s.usesNear o = false) (hfar : s.usesFar o = false) :
    ((s.store ty key v data o).run visit c).2 = c := by
  unfold store putNear
  rw [hnear, hfar]
  cases o.skip.covers .all with
  | true => rfl
  | false =>
    cases s.hasTier with
    | true => rfl
    | false => rfl

/-- **The far tier decides** how storing a value ends, if the call uses it: when the far tier fails,
the call fails for the same cause. -/
lemma StoreEnds.eq_error {r : Progress (Except Failure Unit)} {far : σ}
    (h : s.StoreEnds visit key content data o c r c') (huses : s.usesFar o = true)
    (hfar : c.far = some far)
    (hanswer : (FarStore.answer far visit.now (.write o.condition key data o.lifetime)).1 =
      .failure f)
    (hafford : s.usesNear o = true → c.Affords visit.now o.lifetime) :
    r = .finished (.error f) := by
  have hsame : ∀ {far₁ far₂ : σ} {a : Answer (.write o.condition key data o.lifetime)},
      c.far = some far₁ →
      FarStore.answer far₁ visit.now (.write o.condition key data o.lifetime) = (a, far₂) →
        a = .failure f := by
    intro far₁ far₂ a there answer
    obtain rfl := Option.some.inj (hfar.symm.trans there)
    rw [← hanswer, answer]
  cases h with
  | nearCrashed uses near put =>
    exact absurd put (NearTier.put_ne_none (hafford uses _ near) key _)
  | alone _ unused => cases huses.symm.trans unused
  | farCrashed _ _ there answer => cases hsame there answer
  | failed _ _ there answer => rw [Answer.failure.inj (hsame there answer)]
  | applied _ _ there answer => cases hsame there answer
  | refused _ _ there answer => cases hsame there answer

/-- **How far a failed call came**: it left the near tier alone, or it wrote into it. -/
lemma set_failed_cases (hc : c.Sound)
    (h : (c.setup.set ty key v o).visit visit c = (.finished (.error f), c')) :
    (c'.near = c.near ∧
        (c.setup.usesNear o = false ∨ ∃ fault, c.envelope.encode ty v = .error fault)) ∨
      ∃ data c₁, c.envelope.encode ty v = .ok data ∧ c.setup.usesNear o = true ∧
        c.setup.Laid visit.now key (contentOf ty v data o) o c c₁ ∧ c'.near = c₁.near ∧
          c.Kept c' := by
  rw [Prog.visit_eq_finished_iff] at h
  cases hencode : c.envelope.encode ty v with
  | error fault =>
    have hset : c.setup.set ty key v o = .done (.error (.envelope fault)) := by
      unfold set
      rw [show c.setup.envelope.encode ty v = .error fault from hencode]
    rw [hset] at h
    cases h
    exact .inl ⟨rfl, .inr ⟨fault, rfl⟩⟩
  | ok data =>
    rw [set_eq_store (s := c.setup) hencode] at h
    by_cases huses : c.setup.usesNear o = true ∨ c.setup.usesFar o = true
    · have hends := store_ends visit ty key v data hc rfl huses
      rw [h] at hends
      cases hends with
      | @failed c₁ far far' _ laid _ there _ =>
        obtain ⟨hkept, hfar₁⟩ := laid.kept hc
        cases hnear : c.setup.usesNear o with
        | true =>
          exact .inr ⟨data, c₁, rfl, rfl, laid, rfl,
            hkept.trans (.of_far hkept.sound (hfar₁.trans there) far')⟩
        | false =>
          cases laid with
          | skipped => exact .inl ⟨rfl, .inl rfl⟩
          | written uses => cases hnear.symm.trans uses
    · obtain ⟨hnear, hfar⟩ := not_or.mp huses
      rw [Bool.not_eq_true] at hnear hfar
      have hsame := store_unused visit ty key v data c hnear hfar
      rw [h] at hsame
      obtain rfl : c' = c := hsame
      exact .inl ⟨rfl, .inl hnear⟩

/-- **The value of a failed call is served** once the call has written it into the near tier.

**Proof sketch.** The tier has its entry, with a deadline to come, since all that the call does then
is to ask the far tier. -/
lemma served_of_failed (hc : c.Reached)
    (h : (c.setup.set ty key v o).visit visit c = (.finished (.error f), c'))
    (huses : c.setup.usesNear o = true) (hencode : c.envelope.encode ty v = .ok data) :
    ∃ e, c'.nearLive visit.now key = some e ∧ e.content = contentOf ty v data o ∧
      ∀ visit' o', c.setup.usesNear o' = true → e.isLive visit'.now = true →
        ((c'.setup.get ty key o').visit visit' c').1 =
          .finished ((contentOf ty v data o).read ty) := by
  rcases set_failed_cases hc.sound h with
    ⟨-, hunused | ⟨fault, hfault⟩⟩ | ⟨data', c₁, hencode', -, hlaid, hnear, hkept⟩
  · cases huses.symm.trans hunused
  · cases hencode.symm.trans hfault
  · obtain rfl := Except.ok.inj (hencode.symm.trans hencode')
    obtain ⟨deadline, hlate, he⟩ := hlaid.here hc huses
    have he' := (Cache.nearAt_congr hnear key).trans he
    refine ⟨⟨contentOf ty v data o, deadline⟩,
      Cache.nearLive_eq_some.mpr ⟨he', decide_eq_true hlate⟩, rfl, ?_⟩
    intro visit' o' huses' hlive
    exact Prog.visit_of_run (lookup_near_run visit' ty key hkept.sound rfl (hkept.setup ▸ huses')
      (Cache.nearLive_eq_some.mpr ⟨he', hlive⟩))

/-- What a call that fails to set a value `v` of type `ty` leaves in the near tier. -/
structure LeftBehind (c : Cache σ) (visit : Visit) (ty : Ty) (key : String) (v : Value)
    (o : CallOptions) (c' : Cache σ) : Prop where
  /-- It leaves this tier as it was when the options say so or the value has no stored form. -/
  kept : (c.setup.usesNear o = false ∨ ∃ fault, c.envelope.encode ty v = .error fault) →
    c'.near = c.near
  /-- Otherwise this tier has the value, not yet expired, and look-ups that use this tier are served
  with it until then. -/
  served : ∀ data, c.setup.usesNear o = true → c.envelope.encode ty v = .ok data →
    ∃ e, c'.nearLive visit.now key = some e ∧ e.content = contentOf ty v data o ∧
      ∀ visit' o', c.setup.usesNear o' = true → e.isLive visit'.now = true →
        ((c'.setup.get ty key o').visit visit' c').1 =
          .finished ((contentOf ty v data o).read ty)
  /-- What this tier has under other keys was there before. -/
  others : ∀ k, k ≠ key → ∀ e, c'.nearAt k = some e → c.nearAt k = some e

/-- **What failed calls leave behind**, over any far tier and in every cache that is reached: the
near tier is as it was if the call never came to it, and serves the value otherwise.

**Proof sketch.** By how far the call came. Once it has written into the near tier, only the far
tier is asked, and nothing is taken back. -/
theorem left_behind (hc : c.Reached)
    (h : (c.setup.set ty key v o).visit visit c = (.finished (.error f), c')) :
    LeftBehind c visit ty key v o c' where
  kept hcause := by
    rcases set_failed_cases hc.sound h with ⟨hnear, -⟩ | ⟨data, c₁, hencode, huses, -⟩
    · exact hnear
    · rcases hcause with hunused | ⟨fault, hfault⟩
      · cases huses.symm.trans hunused
      · cases hencode.symm.trans hfault
  served _ huses hencode := served_of_failed hc h huses hencode
  others k hk e he := by
    rcases set_failed_cases hc.sound h with ⟨hnear, -⟩ | ⟨data, c₁, -, -, hlaid, hnear, -⟩
    · exact (Cache.nearAt_congr hnear k).symm.trans he
    · exact hlaid.others hc.sound hk ((Cache.nearAt_congr hnear k).symm.trans he)

end AnyFarTier

/-! ## A far tier that does not answer in time -/

/-- A cache of two empty tiers, of which the far one never answers writes in time. -/
def lateTiers : Cache (Drill MemoryStore) :=
  { near := NearTier.new (fun _ => 0) (fun _ => 0) 1 0,
    far := some {
      store := {}, mishaps := [(.write .always, .fail (.farTimeout (Span.seconds 1)))] } }

/-- The near tier is new. -/
lemma near_lateTiers : lateTiers.near = NearTier.new (fun _ => 0) (fun _ => 0) 1 0 := rfl

/-- The near tier is one that its operations lead to. -/
lemma reached_lateTiers : lateTiers.Reached := .of_new near_lateTiers

/-- The value that is set has a stored form. -/
lemma encode_lateTiers :
    lateTiers.setup.envelope.encode (.scalar (.int .int64)) (.int 7) = .ok [7, 0] := rfl

/-- Setting a value there fails. -/
lemma set_lateTiers :
    (lateTiers.setup.set (.scalar (.int .int64)) "k" (.int 7) {}).visit ⟨0, 0, none⟩ lateTiers =
      (.finished (.error (.farTimeout (Span.seconds 1))),
        ((lateTiers.setup.set (.scalar (.int .int64)) "k" (.int 7) {}).visit ⟨0, 0, none⟩
          lateTiers).2) := by
  have hends := store_ends (o := {}) ⟨0, 0, none⟩ (.scalar (.int .int64)) "k" (.int 7) [7, 0]
    reached_lateTiers.sound rfl (.inr rfl)
  refine Prod.ext ?_ rfl
  rw [set_eq_store encode_lateTiers]
  exact Prog.visit_of_run (hends.eq_error rfl rfl rfl fun _ => Cache.affords_new near_lateTiers)

/-- What is left behind by a call that the far tier does not answer in time. -/
theorem left_behind_late :
    lateTiers.Reached ∧
      ∃ c', (lateTiers.setup.set (.scalar (.int .int64)) "k" (.int 7) {}).visit ⟨0, 0, none⟩
          lateTiers = (.finished (.error (.farTimeout (Span.seconds 1))), c') ∧
        LeftBehind lateTiers ⟨0, 0, none⟩ (.scalar (.int .int64)) "k" (.int 7) {} c' :=
  ⟨reached_lateTiers, _, set_lateTiers, left_behind reached_lateTiers set_lateTiers⟩

/-- **A value whose writing failed is served**: there was nothing under its key in the near tier,
and a look-up is served with it after the failure. -/
theorem failed_value_served :
    ∃ c', (lateTiers.setup.set (.scalar (.int .int64)) "k" (.int 7) {}).visit ⟨0, 0, none⟩
        lateTiers = (.finished (.error (.farTimeout (Span.seconds 1))), c') ∧
      lateTiers.nearLive 0 "k" = none ∧ (∃ e, c'.nearLive 0 "k" = some e) ∧
      ((c'.setup.get (.scalar (.int .int64)) "k" {}).visit ⟨0, 0, none⟩ c').1 =
        .finished (.ok (some (.int 7))) := by
  obtain ⟨e, he, -, hserved⟩ := served_of_failed reached_lateTiers set_lateTiers rfl
    encode_lateTiers
  refine ⟨_, set_lateTiers, ?_, ⟨e, he⟩, ?_⟩
  · rw [Cache.nearLive]
    cases hnear : lateTiers.near with
    | none => rw [Cache.nearAt_of_none hnear, Option.filter_none]
    | some t =>
      rw [Cache.nearAt_of_some hnear, NearTier.peek_new (near_lateTiers.symm.trans hnear),
        Option.filter_none]
  · exact hserved ⟨0, 0, none⟩ {} rfl (Cache.nearLive_eq_some.mp he).2

end Setup

end LayeredCache
