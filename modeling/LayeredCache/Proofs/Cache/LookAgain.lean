import LayeredCache.Proofs.Cache.Lifetimes
import LayeredCache.Proofs.Cache.OneKey
import LayeredCache.Proofs.Cache.Storing

/-!
# Looking up again

A look-up tidies up: it takes an expired entry away, and copies what the far tier serves into the
near tier. Then there is nothing more to be done, and looking up again at the same instant gives
the same answer and changes nothing that a program on this key can see. This holds for every
setting of the options, and for a key whose entry was dropped because it could not be read.

## Main definitions

* `Setup.Settled` — a look-up has nothing more to do, and what it answers.

## Main results

* `Setup.lookup_settles` — after a look-up there is nothing more to do.
* `Setup.heal_settles` — after an entry was dropped the key is missing.
* `Setup.Settled.lookup` — a look-up that has nothing to do leaves a twin.
-/

set_option autoImplicit false

namespace LayeredCache.Setup

open Far

variable {s : Setup} {ty : Ty} {key : String} {o : CallOptions} {visit : Visit}
  {c c' : Cache MemoryStore}

/-- A look-up of a key has nothing to do but to answer. -/
inductive Settled (s : Setup) (ty : Ty) (key : String) (o : CallOptions) (now : Instant)
    (c : Cache MemoryStore) : Except Failure (Option Value) → Prop where
  | skipped (skips : o.skip.covers .all = true) : Settled s ty key o now c (.error .missing)
  | tierless (skips : o.skip.covers .all = false) (tiers : s.hasTier = false) :
      Settled s ty key o now c (.error .noTiers)
  | near {e : Entry} (uses : s.usesNear o = true) (served : c.nearLive now key = some e) :
      Settled s ty key o now c (e.content.read ty)
  | far {h : Held} (unused : s.usesNear o = false) (uses : s.usesFar o = true)
      (served : c.farLive now key = some h) :
      Settled s ty key o now c ((Content.stored h.data).read ty)
  | missing (skips : o.skip.covers .all = false) (tiers : s.hasTier = true)
      (near : s.usesNear o = true → c.nearAt key = none)
      (far : s.usesFar o = true → c.farAt key = none) :
      Settled s ty key o now c (.error .missing)

/-! ## What a settled look-up leaves -/

/-- A look-up in the near tier that takes nothing away leaves a twin. -/
lemma findNear_twins (visit : Visit) (hc : c.Sound) (hs : c.setup = s)
    (hfresh : s.usesNear o = true → c.nearLive visit.now key = c.nearAt key) :
    ∃ c', (s.findNear key o).run visit c =
        (.finished (if s.usesNear o then (c.nearAt key).map Entry.content else none), c') ∧
      c.Twins key c' := by
  unfold findNear
  cases huses : s.usesNear o with
  | false => exact ⟨c, rfl, .refl hc⟩
  | true =>
    have hfresh := hfresh huses
    cases hnear : c.near with
    | none =>
      rw [usesNear, Cache.near_eq_false hs hnear] at huses
      cases huses
    | some t =>
      have ht := hc t hnear
      obtain ⟨hsound, -, hfound, -⟩ := ht.get visit.now key
      rw [Cache.nearLive, Cache.nearAt_of_some hnear] at hfresh
      have hstays : (t.get visit.now key).2.face key = t.face key := by
        rw [NearTier.face_get ht, hfresh]
        rfl
      rw [hfresh] at hfound
      have htwins : c.Twins key { c with near := some (t.get visit.now key).2 } := by
        refine ⟨hc, fun _ hu => Option.some.inj hu ▸ hsound, ?_, rfl, rfl, rfl⟩
        rw [hnear]
        exact (congrArg some hstays).symm
      simp only [if_true, Prog.run, hnear, Cache.nearAt_of_some hnear]
      rw [hfound]
      exact ⟨_, rfl, htwins.of_same rfl rfl rfl rfl rfl rfl rfl rfl⟩

/-- The far tier is asked for a key and takes nothing away. -/
lemma twins_of_asked {store : MemoryStore} (hc : c.Sound) (hfar : c.far = some store)
    (hfresh : c.farLive visit.now key = c.farAt key) :
    c.Twins key { c with far := some (store.get visit.now key).2 } := by
  refine ⟨hc, hc, rfl, ?_, rfl, rfl⟩
  have hsame : (store.get visit.now key).2.entries[key]? = store.entries[key]? := by
    rw [Cache.farLive, Cache.farAt_of_some hfar] at hfresh
    rw [store.entries_get, if_pos rfl]
    exact hfresh
  rw [hfar]
  exact (congrArg some hsame).symm

/-- **A look-up in the far tier that finds nothing** leaves nothing under the key there, and a twin
if nothing was held before. -/
lemma fetch_gone (visit : Visit) (hc : c.Sound) (hs : c.setup = s)
    (hnone : s.usesFar o = true → c.farLive visit.now key = none) :
    ∃ c', (s.fetch key o).run visit c = (.finished (.error .missing), c') ∧ c'.near = c.near ∧
      (s.usesFar o = true → c'.farAt key = none) ∧
      ((s.usesFar o = true → c.farAt key = none) → c.Twins key c') := by
  unfold fetch
  cases huses : s.usesFar o with
  | false => exact ⟨c, rfl, rfl, Bool.false_ne_true.elim, fun _ => .refl hc⟩
  | true =>
    have hnone := hnone huses
    cases hfar : c.far with
    | none =>
      rw [usesFar, Cache.far_eq_false hs hfar] at huses
      cases huses
    | some store =>
      have hlive : store.liveAt visit.now key = none := by
        rw [Cache.farLive, Cache.farAt_of_some hfar] at hnone
        exact hnone
      have hgone : (store.get visit.now key).2.entries[key]? = none := by
        rw [store.entries_get, if_pos rfl, hlive]
      simp only [if_true, Prog.run, hfar, MemoryStore.answer_get_of_gone hlive]
      refine ⟨_, rfl, rfl, fun _ => hgone, fun hheld => ?_⟩
      have htwins := twins_of_asked hc hfar (hnone.trans (hheld trivial).symm)
      exact htwins.of_same rfl rfl rfl rfl rfl rfl rfl rfl

/-- A look-up in the far tier that finds an entry and copies nothing leaves a twin. -/
lemma fetch_found_twins {h : Held} (hc : c.Sound) (hunused : s.usesNear o = false)
    (huses : s.usesFar o = true) (hheld : c.farLive visit.now key = some h) :
    ∃ c', (s.fetch key o).run visit c = (.finished (.ok h.data), c') ∧ c.Twins key c' := by
  have hfresh := hheld.trans (Cache.farLive_eq_some.mp hheld).1.symm
  unfold fetch
  cases hfar : c.far with
  | none => cases (Cache.farAt_of_none hfar key).symm.trans (Cache.farLive_eq_some.mp hheld).1
  | some store =>
    have hlive : store.liveAt visit.now key = some h := by
      rw [Cache.farLive, Cache.farAt_of_some hfar] at hheld
      exact hheld
    have htwins := twins_of_asked hc hfar hfresh
    have hput : s.putNear key (.stored h.data) o = .done () := by
      rw [putNear, hunused, if_neg Bool.false_ne_true]
    simp only [huses, if_true, Prog.run, hfar, MemoryStore.answer_get_of_live hlive, hput]
    exact ⟨_, rfl, htwins.of_same rfl rfl rfl rfl rfl rfl rfl rfl⟩

/-- A look-up goes on to the far tier. -/
lemma lookup_eq_fetch {c₁ : Cache MemoryStore} (ty : Ty) (hskips : o.skip.covers .all = false)
    (htiers : s.hasTier = true)
    (hfind : (s.findNear key o).run visit c = (.finished none, c₁)) :
    (s.lookup ty key o).run visit c = Prog.resume visit (fun
      | .error f => .done (.error f)
      | .ok data => .done ((Content.stored data).read ty)) ((s.fetch key o).run visit c₁) := by
  unfold lookup
  rw [hskips, if_neg Bool.false_ne_true, htiers]
  show Prog.run visit ((s.findNear key o).bind _) c = _
  rw [Prog.run_bind, hfind]
  exact Prog.run_bind visit (s.fetch key o) _ c₁

/-- **A look-up that has nothing to do** gives its answer and leaves a twin. -/
theorem Settled.lookup {r : Except Failure (Option Value)}
    (h : s.Settled ty key o visit.now c r) (hc : c.Sound) (hs : c.setup = s) :
    ∃ c', (s.lookup ty key o).run visit c = (.finished r, c') ∧ c.Twins key c' := by
  cases h with
  | skipped skips =>
    unfold Setup.lookup
    rw [skips, if_pos rfl]
    exact ⟨c, rfl, .refl hc⟩
  | tierless skips tiers =>
    unfold Setup.lookup
    rw [skips, if_neg Bool.false_ne_true, tiers]
    exact ⟨c, rfl, .refl hc⟩
  | @near e uses served =>
    obtain ⟨htiers, hskips⟩ := hasTier_of_uses (.inl uses)
    have hhere := (Cache.nearLive_eq_some.mp served).1
    obtain ⟨c', hfind, htwins⟩ := findNear_twins (o := o) visit hc hs fun _ =>
      served.trans hhere.symm
    rw [uses, if_pos rfl, hhere, Option.map_some] at hfind
    refine ⟨c', ?_, htwins⟩
    unfold Setup.lookup
    rw [hskips, if_neg Bool.false_ne_true, htiers]
    exact Prog.run_bind visit (s.findNear key o) _ c ▸ hfind ▸ rfl
  | @far h unused uses served =>
    obtain ⟨htiers, hskips⟩ := hasTier_of_uses (.inr uses)
    have hfind : (s.findNear key o).run visit c = (.finished none, c) := by
      rw [findNear, unused, if_neg Bool.false_ne_true]
      rfl
    obtain ⟨c', hfetch, htwins⟩ := fetch_found_twins hc unused uses served
    refine ⟨c', ?_, htwins⟩
    rw [lookup_eq_fetch ty hskips htiers hfind, hfetch]
    rfl
  | missing skips tiers near far =>
    obtain ⟨c₁, hfind, htwins⟩ := findNear_twins (o := o) visit hc hs fun uses => by
      rw [Cache.nearLive, near uses, Option.filter_none]
    have hnothing : (if s.usesNear o then (c.nearAt key).map Entry.content else none) = none := by
      split
      · rename_i huses
        rw [near huses, Option.map_none]
      · rfl
    rw [hnothing] at hfind
    have far₁ : s.usesFar o = true → c₁.farAt key = none :=
      fun uses => htwins.farAt.symm.trans (far uses)
    obtain ⟨c', hfetch, -, -, htwins'⟩ := fetch_gone (o := o) visit htwins.sound'
      (htwins.setup.trans hs) fun uses => by rw [Cache.farLive, far₁ uses, Option.filter_none]
    refine ⟨c', ?_, htwins.trans (htwins' far₁)⟩
    rw [lookup_eq_fetch ty skips tiers hfind, hfetch]
    rfl

/-! ## What every look-up leaves -/

/-- **After a look-up** there is nothing more to do, and its answer stands.

**Proof sketch.** What was found in the near tier stays there. What was found in the far tier was
copied into the near tier with a lifetime that is not zero, or the near tier is not used. What was
found nowhere has left nothing behind. -/
theorem lookup_settles {r : Except Failure (Option Value)} (hc : c.Reached) (hs : c.setup = s)
    (hrun : (s.lookup ty key o).run visit c = (.finished r, c')) :
    s.Settled ty key o visit.now c' r := by
  cases hskips : o.skip.covers .all with
  | true =>
    rw [Setup.lookup, hskips, if_pos rfl] at hrun
    cases hrun
    exact .skipped hskips
  | false =>
  cases htiers : s.hasTier with
  | false =>
    rw [Setup.lookup, hskips, if_neg Bool.false_ne_true, htiers] at hrun
    cases hrun
    exact .tierless hskips htiers
  | true =>
  obtain ⟨c₁, hdoes, hsought, hgone⟩ := findNear_seeks (o := o) visit key hc.sound hs
  have hc₁ : c₁.Reached := by
    have hreached := hc.run visit (s.findNear key o)
    rw [hdoes.run] at hreached
    exact hreached
  have hs₁ : c₁.setup = s := hsought.setup.trans hs
  by_cases hserved : s.usesNear o = true ∧ ∃ e, c.nearLive visit.now key = some e
  · -- the near tier serves the key
    obtain ⟨huses, e, he⟩ := hserved
    have hfind := hdoes.run
    rw [huses, if_pos rfl, he, Option.map_some] at hfind
    have hlook : (s.lookup ty key o).run visit c = (.finished (e.content.read ty), c₁) := by
      unfold Setup.lookup
      rw [hskips, if_neg Bool.false_ne_true, htiers]
      exact Prog.run_bind visit (s.findNear key o) _ c ▸ hfind ▸ rfl
    cases hlook.symm.trans hrun
    exact .near huses
      (Cache.nearLive_eq_some.mpr ⟨hsought.fresh e he, (Cache.nearLive_eq_some.mp he).2⟩)
  · have hstale : s.usesNear o = true → c.nearLive visit.now key = none := by
      intro huses
      cases he : c.nearLive visit.now key with
      | none => rfl
      | some e => exact absurd ⟨huses, e, he⟩ hserved
    have hnothing : (if s.usesNear o then (c.nearLive visit.now key).map Entry.content else none) =
        none := by
      split
      · rename_i huses
        rw [hstale huses, Option.map_none]
      · rfl
    have hfind := hdoes.run
    rw [hnothing] at hfind
    rw [lookup_eq_fetch ty hskips htiers hfind] at hrun
    by_cases hfar : s.usesFar o = true → c₁.farLive visit.now key = none
    · -- nothing is found
      obtain ⟨c₂, hfetch, hnear, hfargone, -⟩ := fetch_gone (o := o) visit hc₁.sound hs₁ hfar
      rw [hfetch] at hrun
      cases hrun
      exact .missing hskips htiers
        (fun huses => (Cache.nearAt_congr hnear key).trans (hgone huses (hstale huses))) hfargone
    · -- the far tier serves the key
      obtain ⟨huses, hheld⟩ := Classical.not_imp.mp hfar
      obtain ⟨h, hh⟩ := Option.ne_none_iff_exists'.mp hheld
      obtain ⟨c₂, halike, hnear, hfarsame, hfetch⟩ := fetch_found hc₁.sound huses hh
      have hc₂ : c₂.Reached := fun t ht => hc₁ t (hnear ▸ ht)
      rw [hfetch, Prog.run_bind] at hrun
      rcases putNear_lays (o := o) visit key (.stored h.data) (halike.setup.trans hs₁) with
        ⟨c₃, hput, hlaid⟩ | ⟨t, -, -, -, hput⟩
      · rw [hput.run] at hrun
        cases hrun
        cases hnearused : s.usesNear o with
        | true =>
          obtain ⟨deadline, hlater, hhere⟩ := hlaid.here hc₂ hnearused
          have hlive : c'.nearLive visit.now key = some ⟨.stored h.data, deadline⟩ :=
            Cache.nearLive_eq_some.mpr ⟨hhere, decide_eq_true hlater⟩
          exact .near hnearused hlive
        | false =>
          have hkept := (hlaid.kept hc₂.sound).2
          have hlive : c'.farLive visit.now key = some h := by
            rw [Cache.farLive, Cache.farAt_congr hkept, hfarsame]
            exact hh
          exact .far hnearused huses hlive
      · rw [hput.run] at hrun
        cases hrun

/-! ## What is left when an entry was dropped -/

/-- Dropping an entry drops it from the near tier, if the call uses it, and goes on to the far
tier. -/
lemma heal_eq_call (visit : Visit) (key : String) (o : CallOptions) (hc : c.Sound)
    (hs : c.setup = s) :
    ∃ c₁, (s.heal key o).run visit c = Prog.run visit (if s.usesFar o then
        .call (.delete [key]) fun
          | .error f => .done (.error f)
          | .ok _ => .done (.ok ())
      else .done (.ok ())) c₁ ∧ c₁.setup = s ∧ (s.usesNear o = true → c₁.nearAt key = none) := by
  cases hskips : o.skip.covers .nearOnly with
  | true =>
    refine ⟨c.recordEvent .heal, ?_, hs, fun huses => ?_⟩
    · simp only [heal, deleteFrom, hskips]
      rfl
    · rw [usesNear, hskips, Bool.not_true, Bool.and_false] at huses
      cases huses
  | false =>
    have hc₀ : (c.recordEvent .heal).Sound := hc
    have hdrop := (dropNear_does (c := c.recordEvent .heal) visit key hs).run
    refine ⟨(c.recordEvent .heal).deleteNear key, ?_,
      (Cache.Kept.of_deleteNear hc₀ key).setup.trans hs, fun _ => ?_⟩
    · simp only [heal, deleteFrom, hskips]
      exact (Prog.run_bind visit (s.dropNear key) _ _).trans (hdrop ▸ rfl)
    · exact (Cache.nearAt_deleteNear hc₀ key key).trans (if_pos rfl)

/-- **Dropping an entry** that cannot be read ends well, and then the key is missing. -/
theorem heal_settles (ty : Ty) (visit : Visit) (hc : c.Sound) (hs : c.setup = s)
    (hskips : o.skip.covers .all = false) (htiers : s.hasTier = true) :
    ∃ c', (s.heal key o).run visit c = (.finished (.ok ()), c') ∧
      s.Settled ty key o visit.now c' (.error .missing) := by
  obtain ⟨c₁, hheal, hs₁, hneargone⟩ := heal_eq_call visit key o hc hs
  rw [hheal]
  cases huses : s.usesFar o with
  | false =>
    exact ⟨c₁, rfl, .missing hskips htiers hneargone fun h => nomatch huses.symm.trans h⟩
  | true =>
    cases hfar : c₁.far with
    | none =>
      rw [usesFar, Cache.far_eq_false hs₁ hfar] at huses
      cases huses
    | some store =>
      have hanswer : FarStore.answer store visit.now (.delete [key]) =
          (.reply (), store.delete [key]) := rfl
      have hfargone : (store.delete [key]).entries[key]? = none := by
        simp [MemoryStore.entries_delete]
      simp only [if_true, Prog.run, hfar, hanswer]
      exact ⟨_, rfl, .missing hskips htiers hneargone fun _ => hfargone⟩

end LayeredCache.Setup
