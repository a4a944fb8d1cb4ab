import LayeredCache.Proofs.Cache.Requests
import LayeredCache.Proofs.Far.MemoryStore

/-!
# What single operations do to both tiers

The steps from which the operations of a cache are made, each run on a cache whose far tier, if it
has one, is a store in memory: looking a key up, writing it into the near tier, storing it in both
tiers, dropping it. Each is described by what the tiers hold under every key afterwards.

## Main definitions

* `Cache.Follows` — a cache after look-ups: what it holds was there before, if only in the other
  tier.
* `Setup.Wrote`, `Setup.Refused`, `Setup.Cleared` — a cache after a write that is applied, after one
  that is refused, and after a key was removed from both tiers.

## Main results

* `Setup.lookup_does` — a look-up.
-/

set_option autoImplicit false

namespace LayeredCache

open Far

namespace Cache

/-- A cache after look-ups. What its tiers hold was there before, or was copied from the far tier
into the near one; what never expires is still there. -/
structure Follows (c c' : Cache MemoryStore) : Prop extends Kept c c' where
  near : ∀ k e, c'.nearAt k = some e →
    c.nearAt k = some e ∨ ∃ h, c.farAt k = some h ∧ e.content = .stored h.data
  far : ∀ k h, c'.farAt k = some h → c.farAt k = some h
  lasting : ∀ k h, c.farAt k = some h → h.deadline = none → c'.farAt k = some h

variable {c c' c'' : Cache MemoryStore}

/-- Doing nothing follows. -/
lemma Follows.refl (h : c.Sound) : Follows c c where
  toKept := .refl h
  near _ _ he := .inl he
  far _ _ hh := hh
  lasting _ _ hh _ := hh

/-- Look-ups after look-ups. -/
lemma Follows.trans (h : Follows c c') (h' : Follows c' c'') :
    Follows c c'' where
  toKept := h.toKept.trans h'.toKept
  near k e he := by
    rcases h'.near k e he with he | ⟨held, hh, hcontent⟩
    · exact h.near k e he
    · exact .inr ⟨held, h.far k held hh, hcontent⟩
  far k held hh := h.far k held (h'.far k held hh)
  lasting k held hh hd := h'.lasting k held (h.lasting k held hh hd) hd

/-- Counting changes no tier. -/
lemma Follows.of_counting {d : Cache MemoryStore} (h : Follows c c') (hnear : d.near = c'.near)
    (hfar : d.far = c'.far) (henvelope : d.envelope = c'.envelope)
    (hflights : d.flights = c'.flights) (hstarted : d.started = c'.started) : Follows c d where
  sound t ht := h.sound t (hnear ▸ ht)
  setup := by
    rw [← h.setup, setup, setup, hnear, hfar, henvelope]
  ttl := by rw [hnear, h.ttl]
  flights := hflights.trans h.flights
  started := hstarted.trans h.started
  near k e he := h.near k e ((nearAt_congr hnear k).symm.trans he)
  far k held hh := h.far k held ((farAt_congr hfar k).symm.trans hh)
  lasting k held hh hd := (farAt_congr hfar k).trans (h.lasting k held hh hd)

end Cache

/-- What a look-up may do: it asks for keys and copies into the near tier what the far tier
holds. -/
def Deed.IsLook (far : Bool) : Deed → Prop
  | .put _ _ => far = true
  | .ask (.get _) _ => True
  | _ => False

namespace Setup

variable {s : Setup} {o : CallOptions} {visit : Visit} {c c' : Cache MemoryStore} {key : String}
  {content : Content}

/-! ## The near tier -/

/-- **Looking up in the near tier** finds nothing or the content of an entry; if it finds nothing,
nothing is left under the key. -/
lemma findNear_does (visit : Visit) (key : String) (hc : c.Sound) (hs : c.setup = s)
    (hskip : o.skip = .none) :
    ∃ found c', (s.findNear key o).Does visit c [] (.finished found) c' ∧ c.Follows c' ∧
      (found = none → c'.nearAt key = none) ∧
      ∀ content, found = some content → ∃ e, c.nearAt key = some e ∧ e.content = content := by
  obtain ⟨c', hdoes, hsought, hgone⟩ := findNear_seeks (o := o) visit key hc hs
  refine ⟨_, c', hdoes, ⟨hsought.toKept, fun k e he => .inl (hsought.near k e he),
    fun k h hh => (Cache.farAt_congr hsought.far k).symm.trans hh,
    fun k h hh _ => (Cache.farAt_congr hsought.far k).trans hh⟩, fun hnone => ?_,
    fun content hcontent => ?_⟩
  · cases huses : s.usesNear o with
    | true =>
      rw [huses, if_pos rfl, Option.map_eq_none_iff] at hnone
      exact hgone huses hnone
    | false =>
      -- the call skips nothing, so that there is no near tier
      cases he : c'.nearAt key with
      | none => rfl
      | some e =>
        have hno := Cache.near_eq_none hs ((usesNear_eq hskip).symm.trans huses)
        cases (Cache.nearAt_of_none hno key).symm.trans (hsought.near key e he)
  · split at hcontent
    · obtain ⟨e, he, rfl⟩ := Option.map_eq_some_iff.mp hcontent
      exact ⟨e, (Cache.nearLive_eq_some.mp he).1, rfl⟩
    · cases hcontent

/-- What writing a content into the near tier leads to. -/
structure Placed (key : String) (content : Content) (c c' : Cache MemoryStore) : Prop
    extends Cache.Kept c c' where
  far : c'.far = c.far
  here : ∀ e, c'.nearAt key = some e → e.content = content
  others : ∀ k, k ≠ key → ∀ e, c'.nearAt k = some e → c.nearAt k = some e

/-- **Writing into the near tier** gives the key a content, unless the clock cannot represent the
deadline. -/
lemma putNear_does (visit : Visit) (key : String) (content : Content) (hc : c.Sound)
    (hs : c.setup = s) (hskip : o.skip = .none) :
    (∃ c', (s.putNear key content o).Does visit c (if s.near then [.put key content] else [])
        (.finished ()) c' ∧ Placed key content c c') ∨
      (s.near = true ∧ (s.putNear key content o).Does visit c [] .crashed c ∧
        ¬ c.Affords visit.now o.lifetime) := by
  rw [← usesNear_eq (s := s) hskip]
  rcases putNear_lays (o := o) visit key content hs with
    ⟨c₁, hdoes, hlaid⟩ | ⟨t, huses, hnear, hput, hdoes⟩
  · obtain ⟨hkept, hfar⟩ := hlaid.kept hc
    refine .inl ⟨c₁, hdoes, hkept, hfar, fun e he => ?_, fun k hk e he => hlaid.others hc hk he⟩
    cases hlaid with
    | skipped hunused =>
      have hno := Cache.near_eq_none hs ((usesNear_eq hskip).symm.trans hunused)
      cases (Cache.nearAt_of_none hno key).symm.trans he
    | written _ hnear hput =>
      obtain ⟨deadline, hhere⟩ := ((hc _ hnear).put hput).2.2.1
      obtain rfl := Option.some.inj (hhere.symm.trans he)
      rfl
  · refine .inr ⟨huses, hdoes, fun hafford => ?_⟩
    exact NearTier.put_ne_none (hafford t hnear) key content hput

/-- What dropping a key leads to: nothing is left under it in the near tier. -/
structure Forgotten (key : String) (c c' : Cache MemoryStore) : Prop
    extends Cache.Kept c c' where
  far : c'.far = c.far
  near : ∀ k e, c'.nearAt k = some e → k ≠ key ∧ c.nearAt k = some e

/-- Removing a key from the near tier forgets it. -/
lemma forgotten_deleteNear (hc : c.Sound) (key : String) : Forgotten key c (c.deleteNear key) where
  toKept := .of_deleteNear hc key
  far := rfl
  near k e he := by
    rw [Cache.nearAt_deleteNear hc] at he
    split at he
    · cases he
    · exact ⟨‹_›, he⟩

/-! ## Look-ups -/

/-- The entries of the far tier after its state was replaced. -/
lemma farAt_set {far : MemoryStore} (c : Cache MemoryStore) (k : String) :
    Cache.farAt { c with far := some far } k = far.entries[k]? := rfl

/-- **Looking up in the far tier** finds nothing, and then nothing is left under the key, or finds
the bytes of an entry and copies them into the near tier. -/
lemma fetch_does (visit : Visit) (key : String) (hc : c.Sound) (hs : c.setup = s)
    (hskip : o.skip = .none) :
    ∃ ds r c', (s.fetch key o).Does visit c ds r c' ∧ c.Follows c' ∧
      (∀ d ∈ ds, d.IsLook s.far) ∧
      ((r = .finished (.error .missing) ∧ c'.farAt key = none ∧
          ∀ e, c'.nearAt key = some e → c.nearAt key = some e) ∨
        (∃ h, c.farAt key = some h ∧ r = .finished (.ok h.data)) ∨
        (r = .crashed ∧ (∃ h, c.farAt key = some h) ∧ ¬ c.Affords visit.now o.lifetime)) := by
  unfold fetch
  rw [usesFar_eq hskip]
  cases hfar : c.far with
  | none =>
    have hno : s.far = false := Cache.far_eq_false hs hfar
    rw [hno, if_neg Bool.false_ne_true]
    refine ⟨[], _, c, .done, .refl hc, by simp, .inl ⟨rfl, ?_, fun _ he => he⟩⟩
    exact Cache.farAt_of_none hfar key
  | some store =>
    have hyes : s.far = true := Cache.far_eq_true hs hfar
    rw [hyes, if_pos rfl]
    have hfar' : ∀ k, c.farAt k = store.entries[k]? := Cache.farAt_of_some hfar
    have hentries := store.entries_get visit.now key
    -- the cache after the store has answered
    have hfollows : c.Follows { c with far := some (store.get visit.now key).2 } := by
      refine ⟨.of_far hc hfar _, fun k e he => .inl he, fun k h hh => ?_, fun k h hh hd => ?_⟩
      · rw [farAt_set, hentries] at hh
        rw [hfar']
        split at hh
        · rename_i hk
          rw [hk]
          exact MemoryStore.entry_of_liveAt hh
        · exact hh
      · rw [hfar'] at hh
        rw [farAt_set, hentries]
        by_cases hk : k = key
        · rw [if_pos hk]
          exact MemoryStore.liveAt_of_permanent (hk ▸ hh) hd visit.now
        · rw [if_neg hk]
          exact hh
    cases hlive : store.liveAt visit.now key with
    | none =>
      refine ⟨_, _, _, .call_failure hfar (MemoryStore.answer_get_of_gone hlive)
          (.tally (.count .done)), hfollows.of_counting rfl rfl rfl rfl rfl,
        by simp [Deed.IsLook], .inl ⟨rfl, ?_, ?_⟩⟩
      · have hgone : (store.get visit.now key).2.entries[key]? = none := by
          rw [hentries, if_pos rfl, hlive]
        exact hgone
      · exact fun e he => he
    | some h =>
      have hanswer := MemoryStore.answer_get_of_live hlive
      have hheld : c.farAt key = some h := (hfar' key).trans (MemoryStore.entry_of_liveAt hlive)
      -- the cache after the look-up was counted as well
      let c₁ : Cache MemoryStore :=
        (Cache.recordTally { c with far := some (store.get visit.now key).2 } true).recordEvent
          (.hit farLabel)
      have hfollows₁ : c.Follows c₁ := hfollows.of_counting rfl rfl rfl rfl rfl
      have hs₁ : c₁.setup = s := hfollows₁.setup.trans hs
      rcases putNear_does visit key (.stored h.data) hfollows₁.sound hs₁ hskip with
        ⟨c', hput, hplaced⟩ | ⟨-, hput, hafford⟩
      · refine ⟨_, _, c', .call_reply hfar hanswer (.tally (.count (hput.bind .done))), ?_, ?_,
          .inr (.inl ⟨h, hheld, rfl⟩)⟩
        · refine ⟨hfollows₁.toKept.trans hplaced.toKept, fun k e he => ?_, fun k held hh => ?_,
            fun k held hh hd => ?_⟩
          · by_cases hk : k = key
            · subst hk
              exact .inr ⟨h, hheld, hplaced.here e he⟩
            · exact hfollows₁.near k e (hplaced.others k hk e he)
          · exact hfollows₁.far k held ((Cache.farAt_congr hplaced.far k).symm.trans hh)
          · exact (Cache.farAt_congr hplaced.far k).trans (hfollows₁.lasting k held hh hd)
        · intro d hd
          simp only [List.append_nil, List.mem_cons] at hd
          rcases hd with rfl | hd
          · trivial
          · split at hd
            · obtain rfl := List.mem_singleton.mp hd
              rfl
            · cases hd
      · refine ⟨_, _, c₁, .call_reply hfar hanswer (.tally (.count hput.bind_crashed)), hfollows₁,
          by simp [Deed.IsLook], .inr (.inr ⟨rfl, ⟨h, hheld⟩, ?_⟩)⟩
        rw [← hfollows₁.toKept.affords]
        exact hafford

/-- What a look-up at type `ty` that leads from `c` to `c'` may come to. -/
inductive Found (ty : Ty) (key : String) (c c' : Cache MemoryStore) :
    Progress (Except Failure (Option Value)) → Prop where
  /-- Nothing is left under the key. -/
  | missing (hnear : c'.nearAt key = none) (hfar : c'.farAt key = none) :
      Found ty key c c' (.finished (.error .missing))
  /-- The near tier served the key. -/
  | near (e : Entry) (he : c.nearAt key = some e) :
      Found ty key c c' (.finished (e.content.read ty))
  /-- The far tier served the key. -/
  | far (h : Held) (hh : c.farAt key = some h) :
      Found ty key c c' (.finished ((Content.stored h.data).read ty))
  /-- Copying what the far tier holds into the near tier crashed. -/
  | crashed (h : Held) (hh : c.farAt key = some h) : Found ty key c c' .crashed

/-- **Looking up** a key reads what one of the tiers holds, or finds that neither holds it any
more. -/
theorem lookup_does (visit : Visit) (key : String) (ty : Ty) (hc : c.Sound) (hs : c.setup = s)
    (htier : s.hasTier = true) (hskip : o.skip = .none) :
    ∃ ds r c', (s.lookup ty key o).Does visit c ds r c' ∧ c.Follows c' ∧
      (∀ d ∈ ds, d.IsLook s.far) ∧ Found ty key c c' r ∧
      (r = .crashed → ¬ c.Affords visit.now o.lifetime) := by
  unfold lookup
  rw [not_covers_all hskip, if_neg Bool.false_ne_true, htier]
  obtain ⟨found, c₁, hfind, hfollows, hnone, hsome⟩ := findNear_does visit key hc hs hskip
  cases found with
  | some content =>
    obtain ⟨e, he, rfl⟩ := hsome content rfl
    exact ⟨_, _, c₁, hfind.bind .done, hfollows, by simp, .near e he, fun h => by cases h⟩
  | none =>
    have hs₁ : c₁.setup = s := hfollows.setup.trans hs
    obtain ⟨ds, r, c', hfetch, hfollows', hlooks, hcase⟩ :=
      fetch_does visit key hfollows.sound hs₁ hskip
    have hall : c.Follows c' := hfollows.trans hfollows'
    have hlooks' : ∀ d ∈ ([] : List Deed) ++ (ds ++ []), d.IsLook s.far := by
      simpa using hlooks
    rcases hcase with ⟨rfl, hgone, hnear⟩ | ⟨h, hh, rfl⟩ | ⟨rfl, ⟨h, hh⟩, hafford⟩
    · refine ⟨_, _, c', hfind.bind (hfetch.bind .done), hall, hlooks', .missing ?_ hgone,
        fun h => by cases h⟩
      -- the near tier held nothing before the far tier was asked
      cases he : c'.nearAt key with
      | none => rfl
      | some e => cases (hnone rfl).symm.trans (hnear e he)
    · exact ⟨_, _, c', hfind.bind (hfetch.bind .done), hall, hlooks',
        .far h (hfollows.far key h hh), fun h => by cases h⟩
    · refine ⟨_, _, c', hfind.bind hfetch.bind_crashed, hall, by simpa using hlooks,
        .crashed h (hfollows.far key h hh), fun _ => ?_⟩
      rw [← hfollows.toKept.affords]
      exact hafford

/-! ## Deletes -/

/-- What removing a key from both tiers leads to. -/
structure Cleared (key : String) (c c' : Cache MemoryStore) : Prop extends Cache.Kept c c' where
  near : ∀ k e, c'.nearAt k = some e → k ≠ key ∧ c.nearAt k = some e
  far : ∀ k h, c'.farAt k = some h → k ≠ key ∧ c.farAt k = some h
  lasting : ∀ k, k ≠ key → ∀ h, c.farAt k = some h → h.deadline = none → c'.farAt k = some h

/-- What removing a key from both tiers does. -/
def clearing (s : Setup) (key : String) : List Deed :=
  (if s.near then [.drop key] else []) ++
    if s.far then [.ask (.delete [key]) (.ok ())] else []

/-- **Removing** a key from both tiers. -/
lemma deleteFrom_does (visit : Visit) (key : String) (hc : c.Sound) (hs : c.setup = s) :
    ∃ c', (s.deleteFrom key .none).Does visit c (s.clearing key) (.finished (.ok ())) c' ∧
      Cleared key c c' := by
  have hdrop := dropNear_does visit key hs
  have hforgotten := forgotten_deleteNear hc key
  generalize c.deleteNear key = c₁ at hdrop hforgotten
  have hs₁ : c₁.setup = s := hforgotten.setup.trans hs
  unfold deleteFrom clearing
  cases hfar : c₁.far with
  | none =>
    have hno : s.far = false := Cache.far_eq_false hs₁ hfar
    have hnone : ∀ k, c₁.farAt k = none := Cache.farAt_of_none hfar
    rw [hno]
    refine ⟨c₁, hdrop.bind .done, hforgotten.toKept, hforgotten.near, fun k h hh => ?_,
      fun k _ h hh _ => ?_⟩
    · cases (hnone k).symm.trans hh
    · exact (Cache.farAt_congr hforgotten.far k).trans hh
  | some store =>
    have hyes : s.far = true := Cache.far_eq_true hs₁ hfar
    have hfar' : ∀ k, c.farAt k = store.entries[k]? :=
      Cache.farAt_of_some (hforgotten.far.symm.trans hfar)
    rw [hyes]
    refine ⟨_, hdrop.bind (.call_reply hfar rfl .done),
      hforgotten.toKept.trans (.of_far hforgotten.sound hfar _), ?_, ?_, ?_⟩
    · exact fun k e he => hforgotten.near k e he
    · intro k h hh
      rw [farAt_set, MemoryStore.entries_delete] at hh
      by_cases hk : k = key
      · simp [hk] at hh
      · rw [if_neg (by simpa using hk)] at hh
        exact ⟨hk, (hfar' k).trans hh⟩
    · intro k hk h hh _
      rw [farAt_set, MemoryStore.entries_delete, if_neg (by simpa using hk), ← hfar']
      exact hh

/-- **Healing** removes a key from both tiers. -/
lemma heal_does (visit : Visit) (key : String) (hc : c.Sound) (hs : c.setup = s)
    (hskip : o.skip = .none) :
    ∃ c', (s.heal key o).Does visit c (s.clearing key) (.finished (.ok ())) c' ∧
      Cleared key c c' := by
  unfold heal
  rw [hskip]
  obtain ⟨c', hdelete, hcleared⟩ := deleteFrom_does visit key (c := c.recordEvent .heal) hc hs
  exact ⟨c', .count hdelete, ⟨hcleared.sound, hcleared.setup, hcleared.ttl, hcleared.flights,
    hcleared.started⟩, hcleared.near, hcleared.far, hcleared.lasting⟩

/-! ## Writes -/

/-- What a write that is applied leads to: the tiers hold the new value under its key, and under
the other keys nothing new. -/
structure Wrote (key : String) (content : Content) (held : Held) (c c' : Cache MemoryStore) : Prop
    extends Cache.Kept c c' where
  nearHere : ∀ e, c'.nearAt key = some e → e.content = content
  farHere : c.setup.far = true → c'.farAt key = some held
  near : ∀ k, k ≠ key → ∀ e, c'.nearAt k = some e → c.nearAt k = some e
  far : ∀ k, k ≠ key → ∀ h, c'.farAt k = some h → c.farAt k = some h

/-- What a write that is refused leads to: the near tier forgets the key, and nothing else is
new. -/
structure Refused (key : String) (c c' : Cache MemoryStore) : Prop extends Cache.Kept c c' where
  near : ∀ k e, c'.nearAt k = some e → k ≠ key ∧ c.nearAt k = some e
  far : ∀ k h, c'.farAt k = some h → c.farAt k = some h

/-- The entry that a write with given options makes in the far tier. -/
def heldOf (o : CallOptions) (now : Instant) (data : Bytes) : Held :=
  ⟨data, if o.lifetime = 0 then none else some (now + o.lifetime)⟩

/-- What a write that is applied does. -/
def writing (s : Setup) (key : String) (content : Content) (data : Bytes) (o : CallOptions) :
    List Deed :=
  (if s.near then [.put key content] else []) ++
    if s.far then [.ask (.write o.condition key data o.lifetime) (.ok true)] else []

/-- What a write that is refused does. -/
def refusal (s : Setup) (key : String) (content : Content) (data : Bytes) (o : CallOptions) :
    List Deed :=
  (if s.near then [.put key content] else []) ++
    .ask (.write o.condition key data o.lifetime) (.ok false) ::
      if s.near then [.drop key] else []

/-- **Storing** a value whose deadline can be represented: it is written into both tiers, or the
far tier refuses it, or nothing happens because the near tier crashes. -/
lemma store_does (visit : Visit) (key : String) (ty : Ty) (value : Value) (data : Bytes)
    (hc : c.Sound) (hs : c.setup = s)
    (htier : s.hasTier = true) (hskip : o.skip = .none)
    (hrep : MemoryStore.Representable visit.now o.lifetime) :
    (∃ c', (s.store ty key value data o).Does visit c
        (s.writing key (contentOf ty value data o) data o) (.finished (.ok ())) c' ∧
        Wrote key (contentOf ty value data o) (heldOf o visit.now data) c c') ∨
      (∃ c', s.far = true ∧ o.condition ≠ .always ∧ (s.store ty key value data o).Does visit c
        (s.refusal key (contentOf ty value data o) data o) (.finished (.ok ())) c' ∧
        Refused key c c') ∨
      ((s.store ty key value data o).Does visit c [] .crashed c ∧
        ¬ c.Affords visit.now o.lifetime) := by
  unfold store
  rw [not_covers_all hskip, if_neg Bool.false_ne_true, htier, usesFar_eq hskip]
  rcases putNear_does visit key (contentOf ty value data o) hc hs hskip with
    ⟨c₁, hput, hplaced⟩ | ⟨-, hput, hafford⟩
  swap
  · exact .inr (.inr ⟨hput.bind_crashed, hafford⟩)
  have hs₁ : c₁.setup = s := hplaced.setup.trans hs
  unfold writing refusal
  cases hfar : c₁.far with
  | none =>
    have hno : s.far = false := Cache.far_eq_false hs₁ hfar
    rw [hno]
    refine .inl ⟨c₁, hput.bind .done, hplaced.toKept, hplaced.here, ?_, hplaced.others, ?_⟩
    · intro hyes
      rw [hs, hno] at hyes
      cases hyes
    · intro k _ h hh
      exact (Cache.farAt_congr hplaced.far k).symm.trans hh
  | some store =>
    have hyes : s.far = true := Cache.far_eq_true hs₁ hfar
    have hfar' : ∀ k, c.farAt k = store.entries[k]? :=
      Cache.farAt_of_some (hplaced.far.symm.trans hfar)
    -- the far tier changes and the rest of the cache does not
    have hkept : ∀ store' : MemoryStore, c.Kept { c₁ with far := some store' } :=
      fun store' => hplaced.toKept.trans (.of_far hplaced.sound hfar store')
    rw [hyes, if_pos rfl, if_pos rfl]
    rcases store.answer_write_cases key data hrep with
      ⟨store', hanswer, hentries⟩ | ⟨store', hcondition, hanswer, hentries⟩
    · refine .inl ⟨_, hput.bind (.call_reply hfar hanswer .done), hkept _, hplaced.here, ?_,
        hplaced.others, ?_⟩
      · intro _
        rw [farAt_set, hentries, if_pos rfl]
        rfl
      · intro k hk h hh
        rw [farAt_set, hentries, if_neg hk] at hh
        exact (hfar' k).trans (MemoryStore.entry_of_liveAt hh)
    · have hkept' := hkept store'
      have hdrop := dropNear_does visit key (hkept'.setup.trans hs)
      have hforgotten := forgotten_deleteNear hkept'.sound key
      have hnext : (o.condition == .always) = false := by
        cases hcond : o.condition with
        | always => exact absurd hcond hcondition
        | ifPresent => rfl
        | ifAbsent => rfl
      refine .inr (.inl ⟨_, rfl, hcondition, hput.bind (.call_reply hfar hanswer ?_),
        hkept'.trans hforgotten.toKept, ?_, ?_⟩)
      · simp only [hnext, Bool.or_false, Bool.false_eq_true, if_false]
        have hrest := hdrop.bind (f := fun _ => (.done (.ok ()) : Prog (Except Failure Unit))) .done
        rw [List.append_nil] at hrest
        exact hrest
      · intro k e he
        obtain ⟨hk, he⟩ := hforgotten.near k e he
        exact ⟨hk, hplaced.others k hk e he⟩
      · intro k h hh
        rw [Cache.farAt_congr hforgotten.far, farAt_set, hentries] at hh
        exact (hfar' k).trans (MemoryStore.entry_of_liveAt hh)

end Setup

end LayeredCache
