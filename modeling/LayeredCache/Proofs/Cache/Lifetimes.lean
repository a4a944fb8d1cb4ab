import LayeredCache.Proofs.Cache.Provenance
import LayeredCache.Proofs.SharedLoad.Turns

/-!
# How long the operations let entries last

Every operation is a look-up, or several, which a write may follow. So it gives the tiers two kinds
of entries: what it writes, with the lifetime that its options name, and a copy of what the far tier
served when the near tier served nothing.

## Main definitions

* `Setup.Finds` — what a look-up may answer.
* `Setup.Offers` — what a call that writes a value may give to the tiers.
* `Setup.Misses` — the first look-up of a call that reads or computes gives nothing to be used.

## Main results

* `Setup.lookup_finds` — a look-up answers with what a tier serves, and may copy it.
* `Setup.set_stocks`, `Setup.delete_stocks`, `Setup.has_searches`, `Setup.take_worked`,
  `Setup.once_worked` — the other operations.
-/

set_option autoImplicit false

namespace LayeredCache

open Far

namespace Setup

variable {ρ : Type} {s : Setup} {o : CallOptions} {visit : Visit} {key : String} {ty : Ty}
  {offer : Content → Bytes → Prop} {c : Cache MemoryStore} {item : Item ρ}

/-! ## Writes -/

/-- Writing into the near tier. -/
lemma putNear_stocks {content : Content} {data : Bytes} (hoffer : offer content data) :
    (s.putNear key content o).Stocks visit s key o offer := by
  intro c hc hs
  refine ⟨?_, fun _ _ => trivial⟩
  rcases putNear_lays (o := o) visit key content hs with
    ⟨c₁, hdoes, hlaid⟩ | ⟨t, -, -, -, hdoes⟩
  · rw [hdoes.run]
    obtain ⟨hkept, hfar⟩ := hlaid.kept hc
    refine ⟨.of_kept hkept, fun k e he => ?_,
      fun k held hh => .inl ((Cache.farAt_congr hfar k).symm.trans hh)⟩
    by_cases hk : k = key
    · subst hk
      cases hlaid with
      | skipped => exact .inl he
      | @written t t' _ hnear hput =>
        have he : t'.entries.peek k = some e := he
        obtain rfl := Option.some.inj (((hc t hnear).peek_put hput).symm.trans he)
        refine .inr ⟨rfl, Nat.add_le_add_left ?_ visit.now, data, hoffer⟩
        rw [Cache.longest, hnear]
        exact NearTier.jittered_le _ _ _
    · exact .inl (hlaid.others hc hk he)
  · rw [hdoes.run]
    exact .refl hc

/-- Dropping a key from the near tier. -/
lemma dropNear_stocks : (s.dropNear key).Stocks visit s key o offer := by
  intro c hc hs
  have hforgotten := forgotten_deleteNear hc key
  rw [(dropNear_does visit key hs).run]
  exact ⟨⟨.of_kept hforgotten.toKept, fun k e he => .inl (hforgotten.near k e he).2,
    fun k held hh => .inl hh⟩, fun _ _ => trivial⟩

/-- Writing into the far tier, and what follows. -/
lemma callWrite_stocks {α : Type} {content : Content} {data : Bytes}
    {next : Except Failure Bool → Prog α} (hoffer : offer content data)
    (hnext : ∀ answer, (next answer).Stocks visit s key o offer) (hfar : s.far = true) :
    (Prog.call (.write o.condition key data o.lifetime) next).Stocks visit s key o offer := by
  intro c hc hs
  refine ⟨?_, fun _ _ => trivial⟩
  cases hstore : c.far with
  | none => cases hfar.symm.trans (Cache.far_eq_false hs hstore)
  | some store =>
    simp only [Prog.run, hstore]
    cases hanswer : FarStore.answer store visit.now (.write o.condition key data o.lifetime) with
    | mk answer store' =>
      -- the far tier has the new entry at most
      have hstocked : c.Stocked visit.now key o offer { c with far := some store' } := by
        have hstore' := congrArg Prod.snd ((MemoryStore.answer_write ..).symm.trans hanswer)
        dsimp only at hstore'
        refine ⟨.of_kept (.of_far hc hstore store'), fun k e he => .inl he, fun k held hh => ?_⟩
        rw [farAt_set, ← hstore'] at hh
        rcases MemoryStore.entry_of_write hh with hold | ⟨hk, rfl⟩
        · exact .inl ((Cache.farAt_of_some hstore k).trans hold)
        · exact .inr ⟨hk, rfl, _, hoffer⟩
      have hs' := hstocked.setup.trans hs
      cases answer with
      | reply applied => exact hstocked.trans (hnext (.ok applied) _ hstocked.sound hs').1
      | failure cause => exact hstocked.trans (hnext (.error cause) _ hstocked.sound hs').1
      | crash => exact hstocked

/-- **Storing** a value gives the tiers entries of it at most, however far it comes. -/
lemma store_stocks {v : Value} {data : Bytes} (hskip : o.skip = .none)
    (hoffer : offer (contentOf ty v data o) data) :
    (s.store ty key v data o).Stocks visit s key o offer := by
  unfold store
  rw [not_covers_all hskip, if_neg Bool.false_ne_true, usesFar_eq hskip]
  split
  · exact .done
  · refine .bind (putNear_stocks hoffer) fun _ => ?_
    split
    · rename_i hfar
      refine callWrite_stocks hoffer (fun answer => ?_) hfar
      cases answer with
      | error f => exact .done
      | ok applied =>
        dsimp only
        split
        · exact .done
        · exact .bind dropNear_stocks fun _ => .done
    · exact .done

/-! ## Look-ups -/

/-- **Copying** what the far tier serves when the near tier serves nothing. -/
lemma putNear_searched {h : Held} (hc : c.Sound) (hs : c.setup = s)
    (hstale : c.nearLive visit.now key = none) (hheld : c.farLive visit.now key = some h) :
    c.Searched visit.now key o ((s.putNear key (.stored h.data) o).run visit c).2 := by
  have hput : (s.putNear key (.stored h.data) o).Stocks visit s key o fun content data =>
      content = .stored data ∧ data = h.data := putNear_stocks ⟨rfl, rfl⟩
  have hstocked := (hput c hc hs).1
  refine ⟨hstocked.toAlike, fun k e he => ?_, fun k held hh => ?_, fun e he => ?_⟩
  · rcases hstocked.near k e he with hold | ⟨hk, hdeadline, -, hcontent, rfl⟩
    · exact .inl hold
    · exact .inr ⟨hk, hstale, ⟨h, hheld, hcontent⟩, hdeadline⟩
  · have hfar : ((s.putNear key (.stored h.data) o).run visit c).2.far = c.far := by
      rcases putNear_lays (o := o) visit key (.stored h.data) hs with
        ⟨c₁, hdoes, hlaid⟩ | ⟨t, -, -, -, hdoes⟩
      · rw [hdoes.run]
        exact (hlaid.kept hc).2
      · rw [hdoes.run]
    exact (Cache.farAt_congr hfar k).symm.trans hh
  · cases hstale.symm.trans he

/-- The far tier is asked for a key that it does not serve, or is not asked. -/
lemma fetch_missing (hc : c.Sound) (hs : c.setup = s)
    (hnone : s.usesFar o = true → c.farLive visit.now key = none) :
    ∃ c', (s.fetch key o).run visit c = (.finished (.error .missing), c') ∧
      c.Searched visit.now key o c' := by
  unfold fetch
  cases huses : s.usesFar o with
  | false => exact ⟨c, rfl, .refl hc⟩
  | true =>
    rw [if_pos rfl]
    cases hfar : c.far with
    | none =>
      rw [usesFar, Cache.far_eq_false hs hfar] at huses
      cases huses
    | some store =>
      have hlive : store.liveAt visit.now key = none := by
        have hnone := hnone huses
        rw [Cache.farLive, Cache.farAt_of_some hfar] at hnone
        exact hnone
      have hentries := store.entries_get visit.now key
      simp only [Prog.run, hfar, MemoryStore.answer_get_of_gone hlive]
      have hkept := Cache.Kept.of_far hc hfar (store.get visit.now key).2
      refine ⟨_, rfl, (Cache.Alike.of_kept hkept).trans (.of_same hc rfl rfl rfl),
        fun k e he => .inl he, fun k h hh => ?_, fun e he => .inl (Cache.nearLive_eq_some.mp he).1⟩
      have hh : (store.get visit.now key).2.entries[k]? = some h := hh
      rw [hentries] at hh
      rw [Cache.farAt_of_some hfar]
      split at hh
      · rename_i hk
        exact hk ▸ MemoryStore.entry_of_liveAt hh
      · exact hh

/-- The far tier is asked for a key that it serves: what it holds is copied into the near tier. -/
lemma fetch_found {h : Held} (hc : c.Sound) (huses : s.usesFar o = true)
    (hheld : c.farLive visit.now key = some h) :
    ∃ c₁ : Cache MemoryStore, c.Alike c₁ ∧ c₁.near = c.near ∧ (∀ k, c₁.farAt k = c.farAt k) ∧
      (s.fetch key o).run visit c =
        ((s.putNear key (.stored h.data) o).bind fun _ => .done (.ok h.data)).run visit c₁ := by
  obtain ⟨hh, -⟩ := Cache.farLive_eq_some.mp hheld
  unfold fetch
  rw [huses, if_pos rfl]
  cases hfar : c.far with
  | none => cases (Cache.farAt_of_none hfar key).symm.trans hh
  | some store =>
    have hlive : store.liveAt visit.now key = some h := by
      rw [Cache.farLive, Cache.farAt_of_some hfar] at hheld
      exact hheld
    simp only [Prog.run, hfar, MemoryStore.answer_get_of_live hlive]
    have hkept := Cache.Kept.of_far hc hfar (store.get visit.now key).2
    refine ⟨(Cache.recordTally { c with far := some (store.get visit.now key).2 } true).recordEvent
        (.hit farLabel), (Cache.Alike.of_kept hkept).trans (.of_same hc rfl rfl rfl), rfl,
      fun k => ?_, rfl⟩
    have hk : (store.get visit.now key).2.entries[k]? = c.farAt k := by
      rw [store.entries_get, Cache.farAt_of_some hfar]
      split
      · rename_i hk
        rw [hk, hlive, MemoryStore.entry_of_liveAt hlive]
      · rfl
    exact hk

/-- **Looking up in the far tier**, when the near tier serves nothing, finds what the far tier
serves and copies it, or finds nothing. -/
lemma fetch_finds (visit : Visit) (key : String) (hc : c.Sound) (hs : c.setup = s)
    (hstale : c.nearLive visit.now key = none) :
    c.Searched visit.now key o ((s.fetch key o).run visit c).2 ∧
      ∀ a, ((s.fetch key o).run visit c).1 = .finished a → a = .error .missing ∨
        ∃ h, c.farLive visit.now key = some h ∧ a = .ok h.data := by
  by_cases hnone : s.usesFar o = true → c.farLive visit.now key = none
  · obtain ⟨c', hrun, hsearched⟩ := fetch_missing (o := o) hc hs hnone
    rw [hrun]
    exact ⟨hsearched, fun a ha => .inl (Progress.finished.inj ha).symm⟩
  · obtain ⟨huses, hserved⟩ := Classical.not_imp.mp hnone
    obtain ⟨h, hheld⟩ := Option.ne_none_iff_exists'.mp hserved
    obtain ⟨c₁, halike, hnear, hfar, hrun⟩ := fetch_found hc huses hheld
    have hcounted : c.Searched visit.now key o c₁ :=
      ⟨halike, fun k e he => .inl ((Cache.nearAt_congr hnear k).symm.trans he),
        fun k held hh => (hfar k).symm.trans hh, fun e he =>
          .inl ((Cache.nearAt_congr hnear key).trans (Cache.nearLive_eq_some.mp he).1)⟩
    have hstale₁ : c₁.nearLive visit.now key = none := by
      rw [Cache.nearLive, Cache.nearAt_congr hnear]
      exact hstale
    have hheld₁ : c₁.farLive visit.now key = some h := by
      rw [Cache.farLive, hfar]
      exact hheld
    have hcopied := hcounted.trans
      (putNear_searched halike.sound (halike.setup.trans hs) hstale₁ hheld₁)
    rw [hrun, Prog.run_bind]
    cases hput : (s.putNear key (.stored h.data) o).run visit c₁ with
    | mk r c' =>
      rw [hput] at hcopied
      cases r with
      | finished _ =>
        exact ⟨hcopied, fun a ha => .inr ⟨h, hheld, (Progress.finished.inj ha).symm⟩⟩
      | blocked rest => exact ⟨hcopied, fun a ha => by cases ha⟩
      | crashed => exact ⟨hcopied, fun a ha => by cases ha⟩

/-- **Looking up in the near tier** finds what that tier serves, if the call uses it. -/
lemma findNear_finds (visit : Visit) (key : String) (hc : c.Sound) (hs : c.setup = s) :
    ∃ c', (s.findNear key o).run visit c =
        (.finished (if s.usesNear o then (c.nearLive visit.now key).map Entry.content else none),
          c') ∧
      c.Searched visit.now key o c' ∧ c'.far = c.far ∧
      (c.nearLive visit.now key = none → c'.nearLive visit.now key = none) := by
  obtain ⟨c', hdoes, hsought, -⟩ := findNear_seeks (o := o) visit key hc hs
  refine ⟨c', hdoes.run, ⟨.of_kept hsought.toKept, fun k e he => .inl (hsought.near k e he),
    fun k h hh => (Cache.farAt_congr hsought.far k).symm.trans hh,
    fun e he => .inl (hsought.fresh e he)⟩, hsought.far, fun hnone => ?_⟩
  by_contra hserved
  obtain ⟨e, he⟩ := Option.ne_none_iff_exists'.mp hserved
  obtain ⟨he, hlive⟩ := Cache.nearLive_eq_some.mp he
  cases hnone.symm.trans (Cache.nearLive_eq_some.mpr ⟨hsought.near key e he, hlive⟩)

/-- What a look-up at type `ty` may answer: nothing, or what reading an entry gives that one of the
tiers serves. -/
def Finds (ty : Ty) (c : Cache MemoryStore) (now : Instant) (key : String)
    (a : Except Failure (Option Value)) : Prop :=
  a = .error .missing ∨ (∃ e, c.nearLive now key = some e ∧ a = e.content.read ty) ∨
    ∃ h, c.farLive now key = some h ∧ a = (Content.stored h.data).read ty

/-- A look-up of a key that the near tier serves gives what that tier holds. -/
lemma lookup_near {e : Entry} (ty : Ty) (htier : s.hasTier = true) (hskip : o.skip = .none)
    (hc : c.Sound) (hs : c.setup = s) (he : c.nearLive visit.now key = some e) :
    ∃ c', (s.lookup ty key o).run visit c = (.finished (e.content.read ty), c') ∧
      c.Searched visit.now key o c' := by
  obtain ⟨c', hrun, hsearched, -, -⟩ := findNear_finds (o := o) visit key hc hs
  rw [usesNear_of_served hskip hs he, if_pos rfl, he] at hrun
  unfold lookup
  rw [not_covers_all hskip, if_neg Bool.false_ne_true, htier]
  exact ⟨c', Prog.run_bind visit (s.findNear key o) _ c ▸ hrun ▸ rfl, hsearched⟩

/-- A look-up of a key that the near tier does not serve, or is not asked for, goes on to the far
tier. -/
lemma lookup_far (ty : Ty) (htier : s.hasTier = true) (hcovers : o.skip.covers .all = false)
    (hc : c.Sound) (hs : c.setup = s)
    (hnone : s.usesNear o = true → c.nearLive visit.now key = none) :
    ∃ c₁, c.Searched visit.now key o c₁ ∧ c₁.far = c.far ∧
      (c.nearLive visit.now key = none → c₁.nearLive visit.now key = none) ∧
      (s.lookup ty key o).run visit c = Prog.run visit ((s.fetch key o).bind fun
        | .error f => .done (.error f)
        | .ok data => .done ((Content.stored data).read ty)) c₁ := by
  obtain ⟨c₁, hrun, hsearched, hfar, hstays⟩ := findNear_finds (o := o) visit key hc hs
  have hnothing : (if s.usesNear o then (c.nearLive visit.now key).map Entry.content else none) =
      none := by
    split
    · rename_i huses
      rw [hnone huses, Option.map_none]
    · rfl
  rw [hnothing] at hrun
  unfold lookup
  rw [hcovers, if_neg Bool.false_ne_true, htier]
  refine ⟨c₁, hsearched, hfar, hstays, ?_⟩
  show Prog.run visit ((s.findNear key o).bind _) c = _
  rw [Prog.run_bind, hrun]
  rfl

/-- **Looking up** a key answers with what one of the tiers serves, and copies it into the near tier
at most. -/
theorem lookup_finds (visit : Visit) (ty : Ty) (key : String) (htier : s.hasTier = true)
    (hskip : o.skip = .none) (hc : c.Sound) (hs : c.setup = s) :
    c.Searched visit.now key o ((s.lookup ty key o).run visit c).2 ∧
      ∀ a, ((s.lookup ty key o).run visit c).1 = .finished a → Finds ty c visit.now key a := by
  cases hnear : c.nearLive visit.now key with
  | some e =>
    obtain ⟨c', hrun, hsearched⟩ := lookup_near (o := o) ty htier hskip hc hs hnear
    rw [hrun]
    exact ⟨hsearched, fun a ha => .inr (.inl ⟨e, hnear, (Progress.finished.inj ha).symm⟩)⟩
  | none =>
    obtain ⟨c₁, hsearched, hfar, hstays, hrun⟩ :=
      lookup_far ty htier (not_covers_all hskip) hc hs fun _ => hnear
    obtain ⟨hfetched, hfinds⟩ := fetch_finds visit key hsearched.sound
      (hsearched.setup.trans hs) (hstays hnear)
    have hlive : c₁.farLive visit.now key = c.farLive visit.now key := by
      rw [Cache.farLive, Cache.farLive, Cache.farAt_congr hfar]
    rw [hrun, Prog.run_bind]
    have hall := hsearched.trans hfetched
    cases hfetch : (s.fetch key o).run visit c₁ with
    | mk r c' =>
      rw [hfetch] at hall hfinds
      cases r with
      | blocked rest => exact ⟨hall, fun a ha => by cases ha⟩
      | crashed => exact ⟨hall, fun a ha => by cases ha⟩
      | finished outcome =>
        rcases hfinds outcome rfl with rfl | ⟨h, hh, rfl⟩
        · exact ⟨hall, fun a ha => .inl (Progress.finished.inj ha).symm⟩
        · exact ⟨hall, fun a ha =>
            .inr (.inr ⟨h, hlive ▸ hh, (Progress.finished.inj ha).symm⟩)⟩

/-- Look-ups are look-ups. -/
lemma lookup_searches (ty : Ty) (htier : s.hasTier = true) (hskip : o.skip = .none) :
    (s.lookup ty key o).Searches visit s key o fun _ => True :=
  fun _ hc hs => ⟨(lookup_finds visit ty key htier hskip hc hs).1, fun _ _ => trivial⟩

/-- Healing drops entries only. -/
lemma heal_searches (hskip : o.skip = .none) :
    (s.heal key o).Searches visit s key o fun _ => True := by
  intro c hc hs
  obtain ⟨c', hdoes, hcleared⟩ := heal_does visit key hc hs hskip
  rw [hdoes.run]
  exact ⟨.of_cleared hcleared, fun _ _ => trivial⟩

/-! ## Operations -/

/-- **Asking for a key** may copy a live entry into the near tier. -/
lemma has_searches (hskip : o.skip = .none) :
    (s.has key o).Searches visit s key o fun _ => True := by
  intro c hc hs
  refine ⟨?_, fun _ _ => trivial⟩
  unfold has
  split
  · exact .refl hc
  · -- the far tier is asked when the near tier has no live entry
    have hfetch : ∀ next : Outcome → Prog Bool, (∀ data, next (.ok data) = .done true) →
        (∀ f, next (.error f) = .done false) → c.nearLive visit.now key = none →
          c.Searched visit.now key o (((s.fetch key o).bind next).run visit c).2 := by
      intro next hok herror hstale
      have hsearched := (fetch_finds (o := o) visit key hc hs hstale).1
      rw [Prog.run_bind]
      cases hrun : (s.fetch key o).run visit c with
      | mk r c' =>
        rw [hrun] at hsearched
        cases r with
        | finished a =>
          cases a with
          | ok data =>
            simp only [Prog.resume, hok]
            exact hsearched
          | error f =>
            simp only [Prog.resume, herror]
            exact hsearched
        | blocked rest => exact hsearched
        | crashed => exact hsearched
    rw [usesNear_eq hskip]
    cases hnear : c.near with
    | none =>
      rw [Cache.near_eq_false hs hnear]
      exact hfetch _ (fun _ => rfl) (fun _ => rfl)
        (by rw [Cache.nearLive, Cache.nearAt_of_none hnear]; rfl)
    | some t =>
      rw [Cache.near_eq_true hs hnear]
      show c.Searched visit.now key o (Prog.run visit (Prog.holds key _) c).2
      simp only [Prog.run, hnear, Option.any_some]
      cases hhas : t.has visit.now key with
      | true => exact .refl hc
      | false =>
        refine hfetch _ (fun _ => rfl) (fun _ => rfl) ?_
        rw [Cache.nearLive, Cache.nearAt_of_some hnear, Option.filter_eq_none_iff]
        intro e he hlive
        rw [NearTier.has, he, Option.any_some, hlive] at hhas
        cases hhas

/-- The value that an item gives: what its loader gave, or else its plain value. -/
def Produces (item : Item ρ) (loaded : Option (Except LoadFailure Value)) (v : Value) : Prop :=
  match item.loader with
  | some _ => loaded = some (.ok v)
  | none => item.value = some v

/-- Computing the value of an item touches no tier. -/
lemma produce_searches (mode : String) : (produce item mode).Searches visit s key o fun
    | .ok v => Produces item visit.loaded v
    | .error _ => True := by
  intro c hc hs
  unfold produce Produces
  cases item.loader with
  | some name =>
    simp only [Prog.run]
    cases visit.loaded with
    | none => exact ⟨.of_same hc rfl rfl rfl, fun a ha => by cases ha⟩
    | some answer =>
      cases answer with
      | error reason =>
        refine ⟨.of_same hc rfl rfl rfl, fun a ha => ?_⟩
        obtain rfl := Progress.finished.inj ha
        trivial
      | ok v =>
        refine ⟨.of_same hc rfl rfl rfl, fun a ha => ?_⟩
        obtain rfl := Progress.finished.inj ha
        rfl
  | none =>
    cases item.value with
    | none =>
      refine ⟨.of_same hc rfl rfl rfl, fun a ha => ?_⟩
      obtain rfl := Progress.finished.inj ha
      trivial
    | some v =>
      refine ⟨.of_same hc rfl rfl rfl, fun a ha => ?_⟩
      obtain rfl := Progress.finished.inj ha
      rfl

/-- A content with its stored form that a call which writes a value may give to the tiers. -/
def Offers (s : Setup) (ty : Ty) (o : CallOptions) (value : Value → Prop) (content : Content)
    (data : Bytes) : Prop :=
  ∃ v, value v ∧ s.envelope.encode ty v = .ok data ∧ content = contentOf ty v data o

/-- **Deletes** write nothing. -/
lemma delete_stocks : (s.delete key).Stocks visit s key o offer := by
  unfold delete
  split
  · intro c hc hs
    obtain ⟨c', hdoes, hcleared⟩ := deleteFrom_does visit key hc hs
    rw [hdoes.run]
    exact ⟨⟨⟨hcleared.sound, hcleared.setup, hcleared.ttl⟩,
      fun k e he => .inl (hcleared.near k e he).2,
      fun k held hh => .inl (hcleared.far k held hh).2⟩, fun _ _ => trivial⟩
  · exact .done

/-- **Writes** of a value. -/
lemma set_stocks {v : Value} {value : Value → Prop} (hskip : o.skip = .none) (hv : value v) :
    (s.set ty key v o).Stocks visit s key o (s.Offers ty o value) := by
  unfold set
  cases hencode : s.envelope.encode ty v with
  | error f => exact .done
  | ok data => exact store_stocks hskip ⟨v, hv, hencode, rfl⟩

/-- Computing and writing. -/
lemma compute_works (hskip : item.options.skip = .none) :
    (s.compute ty item).Works visit s item.key item.options
      (s.Offers ty item.options (Produces item visit.loaded)) := by
  unfold compute
  refine .after (produce_searches "take") fun produced hproduced => ?_
  cases produced with
  | error f => exact Prog.Stocks.done.works
  | ok v =>
    refine (Prog.Stocks.bind (set_stocks hskip hproduced) fun written => ?_).works
    cases written with
    | error f => exact .done
    | ok u => exact .done

/-- What follows the first look-up of a call that reads or computes, when it gave nothing. -/
lemma take_works (hskip : item.options.skip = .none) (htier : s.hasTier = true)
    (f : Failure) : Prog.Works visit s item.key item.options
      (s.Offers ty item.options (Produces item visit.loaded))
      (if f.isMissing then s.compute ty item
      else if f.isCorruption then do
        match ← s.heal item.key item.options with
        | .error f => return .error f
        | .ok _ =>
          match ← s.lookup ty item.key item.options with
          | .ok v => return .ok v
          | .error f => if f.isMissing then s.compute ty item else return .error f
      else return .error f) := by
  split
  · exact compute_works hskip
  · split
    · refine .after (heal_searches hskip) fun healed _ => ?_
      cases healed with
      | error f => exact Prog.Stocks.done.works
      | ok u =>
        refine .after (lookup_searches ty htier hskip) fun found _ => ?_
        cases found with
        | ok v => exact Prog.Stocks.done.works
        | error f =>
          dsimp only
          split
          · exact compute_works hskip
          · exact Prog.Stocks.done.works
    · exact Prog.Stocks.done.works

/-- Computing and writing inside a shared run. -/
lemma computeStored_works (hskip : item.options.skip = .none) :
    (s.computeStored ty item).Works visit s item.key item.options
      (s.Offers ty item.options (Produces item visit.loaded)) := by
  unfold computeStored
  refine .after (produce_searches "once") fun produced hproduced => ?_
  cases produced with
  | error f => exact Prog.Stocks.done.works
  | ok v =>
    dsimp only
    cases hencode : s.envelope.encode ty v with
    | error f => exact Prog.Stocks.done.works
    | ok data =>
      refine (Prog.Stocks.bind (store_stocks hskip ⟨v, hproduced, hencode, rfl⟩)
        fun written => ?_).works
      cases written with
      | error f => exact .done
      | ok u => exact .done

/-- **The body of a shared run.** -/
lemma flight_works (hskip : item.options.skip = .none) (htier : s.hasTier = true) :
    (s.flight ty item).Works visit s item.key item.options
      (s.Offers ty item.options (Produces item visit.loaded)) := by
  unfold flight
  refine .after (lookup_searches ty htier hskip) fun found _ => ?_
  cases found with
  | ok v =>
    cases v with
    | none => exact Prog.Stocks.done.works
    | some v =>
      dsimp only
      cases s.envelope.encode ty v with
      | error f => exact Prog.Stocks.done.works
      | ok data => exact Prog.Stocks.done.works
  | error f =>
    dsimp only
    split
    · exact computeStored_works hskip
    · split
      · refine .after (heal_searches hskip) fun healed _ => ?_
        cases healed with
        | error f => exact Prog.Stocks.done.works
        | ok u => exact computeStored_works hskip
      · exact Prog.Stocks.done.works

/-- Joining a shared run: the caller runs it, or writes nothing. -/
lemma joinRun_works (hskip : item.options.skip = .none) (htier : s.hasTier = true) :
    (s.joinRun ty item).Works visit s item.key item.options
      (s.Offers ty item.options (Produces item visit.loaded)) := by
  intro c hc hs
  refine ⟨?_, fun _ _ => trivial⟩
  have hland : ((s.flight ty item).bind (landing ty)).Works visit s item.key item.options
      (s.Offers ty item.options (Produces item visit.loaded)) :=
    (flight_works hskip htier).bind_stocks fun outcome c hc _ =>
      ⟨.of_same hc rfl rfl rfl, fun _ _ => trivial⟩
  unfold joinRun
  simp only [Prog.run]
  have hsame : ∀ flights, c.Searched visit.now item.key item.options
      { c with flights := flights } :=
    fun _ => .of_same hc rfl rfl rfl
  have hruns : ∀ flights, c.Worked visit.now item.key item.options
      (s.Offers ty item.options (Produces item visit.loaded))
      (((s.flight ty item).bind (landing ty)).run visit { c with flights := flights }).2 :=
    fun flights => .after (hsame flights) (hland { c with flights := flights } hc hs).1
  cases (c.flights.join visit.caller item.key).turn visit.caller with
  | collect outcome => exact .of_searched (hsame _)
  | start => exact hruns _
  | outside => exact .of_searched (hsame _)
  | wait => exact .of_searched (hsame _)
  | running => exact .of_searched (hsame _)

/-- The first look-up of a call that reads or computes gives nothing that can be used. -/
def Misses (s : Setup) (visit : Visit) (ty : Ty) (item : Item ρ) (c : Cache MemoryStore) : Prop :=
  ∃ f : Failure, (f.isMissing = true ∨ f.isCorruption = true) ∧
    ((s.lookup ty item.key item.options).run visit c).1 = .finished (.error f)

/-- What follows the first look-up of a call, which writes only when that gave nothing. -/
lemma afterLookup_worked
    {next : Except Failure (Option Value) → Prog (Except Failure (Option Value))}
    (htier : s.hasTier = true) (hskip : item.options.skip = .none) (hc : c.Sound)
    (hs : c.setup = s) (hfound : ∀ v, next (.ok v) = .done (.ok v))
    (hfailed : ∀ f : Failure, f.isMissing = false → f.isCorruption = false →
      next (.error f) = .done (.error f))
    (hmissed : ∀ f, (next (.error f)).Works visit s item.key item.options
      (s.Offers ty item.options (Produces item visit.loaded))) :
    c.Worked visit.now item.key item.options (fun content data => s.Misses visit ty item c ∧
        s.Offers ty item.options (Produces item visit.loaded) content data)
      (((s.lookup ty item.key item.options).bind next).run visit c).2 := by
  have hsearched := (lookup_finds visit ty item.key htier hskip hc hs).1
  rw [Prog.run_bind]
  cases hrun : (s.lookup ty item.key item.options).run visit c with
  | mk r c₁ =>
    rw [hrun] at hsearched
    cases r with
    | blocked rest => exact .of_searched hsearched
    | crashed => exact .of_searched hsearched
    | finished found =>
      simp only [Prog.resume]
      cases found with
      | ok v =>
        rw [hfound]
        exact .of_searched hsearched
      | error f =>
        by_cases hmiss : f.isMissing = true ∨ f.isCorruption = true
        · have hworked := (hmissed f c₁ hsearched.sound (hsearched.setup.trans hs)).1
          exact .after hsearched (hworked.mono fun _ _ hoffer =>
            ⟨⟨f, hmiss, congrArg Prod.fst hrun⟩, hoffer⟩)
        · obtain ⟨hmissing, hcorruption⟩ := not_or.mp hmiss
          rw [hfailed f (by simpa using hmissing) (by simpa using hcorruption)]
          exact .of_searched hsearched

/-- **Reading or computing** looks the key up, and writes only when that gave nothing. -/
theorem take_worked (htier : s.hasTier = true) (hskip : item.options.skip = .none) (hc : c.Sound)
    (hs : c.setup = s) :
    c.Worked visit.now item.key item.options (fun content data => s.Misses visit ty item c ∧
        s.Offers ty item.options (Produces item visit.loaded) content data)
      ((s.take ty item).run visit c).2 := by
  refine afterLookup_worked htier hskip hc hs (fun v => rfl) (fun f hmissing hcorruption => ?_)
    (take_works hskip htier)
  dsimp only
  rw [hmissing, hcorruption]
  rfl

/-- **Shared loads** look the key up, and write only when that gave nothing. -/
theorem once_worked (htier : s.hasTier = true) (hskip : item.options.skip = .none) (hc : c.Sound)
    (hs : c.setup = s) :
    c.Worked visit.now item.key item.options (fun content data => s.Misses visit ty item c ∧
        s.Offers ty item.options (Produces item visit.loaded) content data)
      ((s.once ty item).run visit c).2 := by
  rw [once_eq]
  refine afterLookup_worked htier hskip hc hs (fun v => rfl) (fun f hmissing hcorruption => ?_)
    fun f => ?_
  · rw [afterFirst, hmissing, hcorruption]
    rfl
  · dsimp only [afterFirst]
    split
    · exact joinRun_works hskip htier
    · exact Prog.Stocks.done.works

end Setup

end LayeredCache
