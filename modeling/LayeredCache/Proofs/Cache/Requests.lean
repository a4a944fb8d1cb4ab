import LayeredCache.Far.MemoryStore
import LayeredCache.Proofs.Cache.Deeds
import LayeredCache.Proofs.NearTier

/-!
# Requests to the tiers

What the tiers of a cache hold, and what the smallest parts of the operations do to it: looking a
key up in the near tier, writing into it and dropping a key from it. Each part is run here once,
whichever tiers a call leaves alone and whatever the far tier is; nothing below asks again how a
near tier answers.

## Main definitions

* `Cache.nearAt`, `Cache.farAt` — what the tiers hold under a key, expired or not.
* `Cache.nearLive`, `Cache.farLive` — what the tiers serve under a key.
* `Cache.Kept` — what requests to the tiers leave alone.
* `Cache.Affords` — the clock can represent the deadlines of the near tier.
* `Cache.Sought`, `Setup.Laid` — a cache after a look-up in the near tier and after a write into it.

## Main results

* `Setup.findNear_seeks` — a look-up in the near tier.
* `Setup.putNear_lays` — a write into the near tier.
* `Setup.dropNear_does`, `Cache.nearAt_deleteNear` — dropping a key from it.
-/

set_option autoImplicit false

namespace LayeredCache

open Far

/-! ## What the tiers hold -/

namespace Cache

variable {σ : Type}

/-- The entry under a key in the near tier, expired or not. -/
def nearAt (c : Cache σ) (key : String) : Option Entry :=
  c.near.bind fun t => t.entries.peek key

/-- The entry under a key in the far tier, expired or not. -/
def farAt (c : Cache MemoryStore) (key : String) : Option Held :=
  c.far.bind fun s => s.entries[key]?

section Parts

variable {c : Cache σ} {s : Setup} {t : NearTier} {far : σ}

/-- A cache whose setup has no near tier. -/
lemma near_eq_false (hs : c.setup = s) (hnear : c.near = none) : s.near = false := by
  rw [← hs, setup, hnear, Option.isSome_none]

/-- A cache whose setup has a near tier. -/
lemma near_eq_true (hs : c.setup = s) (hnear : c.near = some t) : s.near = true := by
  rw [← hs, setup, hnear, Option.isSome_some]

/-- A cache of which its setup says that it has no near tier. -/
lemma near_eq_none (hs : c.setup = s) (hno : s.near = false) : c.near = none := by
  rw [← hs, setup] at hno
  exact Option.isNone_iff_eq_none.mp (Option.isSome_eq_false_iff.mp hno)

/-- A cache whose setup has no far tier. -/
lemma far_eq_false (hs : c.setup = s) (hfar : c.far = none) : s.far = false := by
  rw [← hs, setup, hfar, Option.isSome_none]

/-- A cache whose setup has a far tier. -/
lemma far_eq_true (hs : c.setup = s) (hfar : c.far = some far) : s.far = true := by
  rw [← hs, setup, hfar, Option.isSome_some]

/-- What is held in the near tier depends on that tier only. -/
lemma nearAt_congr {c' : Cache σ} (hnear : c'.near = c.near) (key : String) :
    c'.nearAt key = c.nearAt key := by
  rw [nearAt, nearAt, hnear]

/-- Without a near tier nothing is held there. -/
lemma nearAt_of_none (hnear : c.near = none) (key : String) : c.nearAt key = none := by
  rw [nearAt, hnear, Option.bind_none]

/-- What a near tier holds. -/
lemma nearAt_of_some (hnear : c.near = some t) (key : String) :
    c.nearAt key = t.entries.peek key := by
  rw [nearAt, hnear, Option.bind_some]

end Parts

/-- What is held in the far tier depends on that tier only. -/
lemma farAt_congr {c c' : Cache MemoryStore} (hfar : c'.far = c.far) (key : String) :
    c'.farAt key = c.farAt key := by
  rw [farAt, farAt, hfar]

/-- Without a far tier nothing is held there. -/
lemma farAt_of_none {c : Cache MemoryStore} (hfar : c.far = none) (key : String) :
    c.farAt key = none := by
  rw [farAt, hfar, Option.bind_none]

/-- What a far tier holds. -/
lemma farAt_of_some {c : Cache MemoryStore} {store : MemoryStore} (hfar : c.far = some store)
    (key : String) : c.farAt key = store.entries[key]? := by
  rw [farAt, hfar, Option.bind_some]

/-- The entry that the near tier serves under a key. -/
def nearLive (c : Cache σ) (now : Instant) (key : String) : Option Entry :=
  (c.nearAt key).filter fun e => e.isLive now

/-- The entry that the far tier serves under a key. -/
def farLive (c : Cache MemoryStore) (now : Instant) (key : String) : Option Held :=
  (c.farAt key).filter fun h => !h.isExpired now

/-- An entry that the near tier serves. -/
lemma nearLive_eq_some {c : Cache σ} {now : Instant} {key : String} {e : Entry} :
    c.nearLive now key = some e ↔ c.nearAt key = some e ∧ e.isLive now = true :=
  Option.filter_eq_some_iff

/-- An entry that the far tier serves. -/
lemma farLive_eq_some {c : Cache MemoryStore} {now : Instant} {key : String} {h : Held} :
    c.farLive now key = some h ↔ c.farAt key = some h ∧ h.isExpired now = false := by
  simp only [farLive, Option.filter_eq_some_iff, Bool.not_eq_true']

/-- A far tier that serves a key is there. -/
lemma far_eq_true_of_served {c : Cache MemoryStore} {s : Setup} {now : Instant} {key : String}
    {h : Held} (hs : c.setup = s) (hh : c.farLive now key = some h) : s.far = true := by
  cases hfar : c.far with
  | none => cases (farAt_of_none hfar key).symm.trans (farLive_eq_some.mp hh).1
  | some store => exact far_eq_true hs hfar

/-- The near tier is sound. -/
def Sound (c : Cache σ) : Prop := ∀ t, c.near = some t → t.Sound

/-- The clock can represent the deadline of a write into the near tier with a given lifetime. -/
def Affords (c : Cache σ) (now : Instant) (ttl : Span) : Prop :=
  ∀ t, c.near = some t → now + (if ttl = 0 then t.defaultTtl else ttl) < Instant.horizon

/-- What requests to the tiers leave alone. -/
structure Kept (c c' : Cache σ) : Prop where
  sound : c'.Sound
  setup : c'.setup = c.setup
  ttl : c'.near.map NearTier.defaultTtl = c.near.map NearTier.defaultTtl
  flights : c'.flights = c.flights
  started : c'.started = c.started

variable {c c' c'' : Cache σ}

/-- A sound cache is kept by doing nothing. -/
lemma Kept.refl (h : c.Sound) : Kept c c := ⟨h, rfl, rfl, rfl, rfl⟩

/-- What is kept twice is kept. -/
lemma Kept.trans (h : Kept c c') (h' : Kept c' c'') : Kept c c'' :=
  ⟨h'.sound, h'.setup.trans h.setup, h'.ttl.trans h.ttl, h'.flights.trans h.flights,
    h'.started.trans h.started⟩

/-- Another near tier that is sound and has the same default lifetime. -/
lemma Kept.of_near {t t' : NearTier} (hnear : c.near = some t) (hsound : t'.Sound)
    (httl : t'.defaultTtl = t.defaultTtl) : Kept c { c with near := some t' } where
  sound u hu := by
    obtain rfl := Option.some.inj hu
    exact hsound
  setup := by simp only [Cache.setup, hnear, Option.isSome_some]
  ttl := by simp only [hnear, Option.map_some, httl]
  flights := rfl
  started := rfl

/-- Another far tier. -/
lemma Kept.of_far {far : σ} (h : c.Sound) (hfar : c.far = some far) (far' : σ) :
    Kept c { c with far := some far' } where
  sound := h
  setup := by simp only [Cache.setup, hfar, Option.isSome_some]
  ttl := rfl
  flights := rfl
  started := rfl

/-- **Removing a key** from the near tier keeps the rest. -/
lemma Kept.of_deleteNear (h : c.Sound) (key : String) : Kept c (c.deleteNear key) := by
  cases hnear : c.near with
  | none =>
    have hdelete : (c.deleteNear key).near = none := by rw [deleteNear, hnear, Option.map_none]
    refine ⟨fun t ht => ?_, ?_, ?_, rfl, rfl⟩
    · cases hdelete.symm.trans ht
    · simp only [Cache.setup, hdelete, hnear, Option.isSome_none]
      rfl
    · rw [hdelete, hnear]
  | some t =>
    have hdelete : (c.deleteNear key).near = some (t.delete key) := by
      rw [deleteNear, hnear, Option.map_some]
    obtain ⟨hsound, httl, -⟩ := (h t hnear).delete key
    refine ⟨fun t' ht' => ?_, ?_, ?_, rfl, rfl⟩
    · obtain rfl := Option.some.inj (hdelete.symm.trans ht')
      exact hsound
    · simp only [Cache.setup, hdelete, hnear, Option.isSome_some]
      rfl
    · rw [hdelete, hnear, Option.map_some, Option.map_some, httl]

/-- What the near tier holds after a key was removed from it. -/
lemma nearAt_deleteNear (h : c.Sound) (key k : String) :
    (c.deleteNear key).nearAt k = if k = key then none else c.nearAt k := by
  cases hnear : c.near with
  | none =>
    rw [nearAt, deleteNear, hnear, Option.map_none, Option.bind_none, nearAt_of_none hnear,
      ite_self]
  | some t =>
    rw [nearAt, deleteNear, hnear, Option.map_some, Option.bind_some, nearAt_of_some hnear]
    exact ((h t hnear).delete key).2.2 k

/-- The deadlines that the clock can represent depend on the default lifetime only. -/
lemma affords_congr (httl : c'.near.map NearTier.defaultTtl = c.near.map NearTier.defaultTtl)
    {now : Instant} {ttl : Span} : c'.Affords now ttl ↔ c.Affords now ttl := by
  have hiff : ∀ d : Cache σ, d.Affords now ttl ↔
      ∀ span, d.near.map NearTier.defaultTtl = some span →
        now + (if ttl = 0 then span else ttl) < Instant.horizon := by
    intro d
    constructor
    · intro hd span hspan
      obtain ⟨t, ht, rfl⟩ := Option.map_eq_some_iff.mp hspan
      exact hd t ht
    · intro hd t ht
      exact hd t.defaultTtl (by rw [ht]; rfl)
  rw [hiff, hiff, httl]

/-- The deadlines that the clock can represent stay the same. -/
lemma Kept.affords (h : Kept c c') {now : Instant} {ttl : Span} :
    c'.Affords now ttl ↔ c.Affords now ttl :=
  affords_congr h.ttl

/-- A cache after a look-up in the near tier, if that tier was asked: at most an expired entry under
the key is gone. -/
structure Sought (now : Instant) (key : String) (c c' : Cache σ) : Prop extends Kept c c' where
  far : c'.far = c.far
  near : ∀ k e, c'.nearAt k = some e → c.nearAt k = some e
  fresh : ∀ e, c.nearLive now key = some e → c'.nearAt key = some e

end Cache

namespace Setup

variable {σ : Type} {s : Setup} {o : CallOptions} {c : Cache σ} {key : String} {content : Content}
  {now : Instant}

/-! ## The tiers that a call uses -/

/-- A call that skips nothing uses the near tier if there is one. -/
lemma usesNear_eq (hskip : o.skip = .none) : s.usesNear o = s.near := by
  simp [usesNear, hskip, Skip.covers, Skip.any, Skip.nearOnly, Skip.none]

/-- A call that skips nothing uses the far tier if there is one. -/
lemma usesFar_eq (hskip : o.skip = .none) : s.usesFar o = s.far := by
  simp [usesFar, hskip, Skip.covers, Skip.any, Skip.farOnly, Skip.none]

/-- A call that skips nothing does not skip everything. -/
lemma not_covers_all (hskip : o.skip = .none) : o.skip.covers .all = false := by
  simp [hskip, Skip.covers, Skip.any, Skip.all, Skip.none]

/-- What it takes to leave tiers alone. -/
lemma covers_eq (skip : Skip) : skip.covers .nearOnly = skip.near ∧
    skip.covers .farOnly = skip.far ∧ skip.covers .all = (skip.near && skip.far) := by
  simp [Skip.covers, Skip.any, Skip.nearOnly, Skip.farOnly, Skip.all]

/-- When a call uses a tier, there is one and it is not skipped. -/
lemma hasTier_of_uses (huses : s.usesNear o = true ∨ s.usesFar o = true) :
    s.hasTier = true ∧ o.skip.covers .all = false := by
  obtain ⟨hnear, hfar, hall⟩ := covers_eq o.skip
  rw [usesNear, usesFar, hnear, hfar, Bool.and_eq_true, Bool.and_eq_true, Bool.not_eq_true',
    Bool.not_eq_true'] at huses
  rw [hasTier, hall]
  rcases huses with ⟨hthere, hskip⟩ | ⟨hthere, hskip⟩
  · simp [hthere, hskip]
  · simp [hthere, hskip]

/-- A call that skips nothing uses the near tier if this tier serves its key. -/
lemma usesNear_of_served {e : Entry} (hskip : o.skip = .none) (hs : c.setup = s)
    (he : c.nearLive now key = some e) : s.usesNear o = true := by
  rw [usesNear_eq hskip]
  by_contra hno
  have hnear := Cache.near_eq_none hs (Bool.eq_false_iff.mpr hno)
  rw [Cache.nearLive, Cache.nearAt_of_none hnear] at he
  cases he

/-- Setting a value whose stored form is `data` is storing it. -/
lemma set_eq_store {ty : Ty} {v : Value} {data : Bytes} (h : s.envelope.encode ty v = .ok data) :
    s.set ty key v o = s.store ty key v data o := by
  rw [set, h]

/-! ## The near tier -/

/-- The cache `c'` is `c` after a call wrote a content into the near tier, if it uses this tier. -/
inductive Laid (s : Setup) (now : Instant) (key : String) (content : Content) (o : CallOptions)
    (c : Cache σ) : Cache σ → Prop
  | skipped (unused : s.usesNear o = false) : Laid s now key content o c c
  | written {t t' : NearTier} (uses : s.usesNear o = true) (near : c.near = some t)
    (put : t.put now key content o.lifetime = some t') :
    Laid s now key content o c { c with near := some t' }

/-- Writing into the near tier leaves the rest alone. -/
lemma Laid.kept {c₁ : Cache σ} (h : s.Laid now key content o c c₁)
    (hc : c.Sound) : c.Kept c₁ ∧ c₁.far = c.far := by
  cases h with
  | skipped => exact ⟨.refl hc, rfl⟩
  | written _ near put =>
    obtain ⟨hsound, httl, -⟩ := (hc _ near).put put
    exact ⟨.of_near near hsound httl, rfl⟩

/-- What is under the other keys was there before. -/
lemma Laid.others {c₁ : Cache σ} (h : s.Laid now key content o c c₁)
    (hc : c.Sound) {k : String} (hk : k ≠ key) {e : Entry} (he : c₁.nearAt k = some e) :
    c.nearAt k = some e := by
  cases h with
  | skipped => exact he
  | written _ near put =>
    obtain ⟨-, -, -, hothers⟩ := (hc _ near).put put
    exact (Cache.nearAt_of_some near k).trans (hothers k hk e he)

variable [FarStore σ] {visit : Visit}

/-- **Looking up in the near tier** gives what this tier serves, if the call uses it. Then nothing
is left under the key unless this tier serves it. -/
lemma findNear_seeks (visit : Visit) (key : String) (hc : c.Sound) (hs : c.setup = s) :
    ∃ c', (s.findNear key o).Does visit c []
        (.finished (if s.usesNear o then (c.nearLive visit.now key).map Entry.content else none))
        c' ∧ c.Sought visit.now key c' ∧
      (s.usesNear o = true → c.nearLive visit.now key = none → c'.nearAt key = none) := by
  unfold findNear
  cases huses : s.usesNear o with
  | false =>
    refine ⟨c, .done, ⟨.refl hc, rfl, fun _ _ he => he, fun e he => ?_⟩, by simp⟩
    exact (Cache.nearLive_eq_some.mp he).1
  | true =>
    cases hnear : c.near with
    | none =>
      rw [usesNear, Cache.near_eq_false hs hnear] at huses
      cases huses
    | some t =>
      obtain ⟨hsound, httl, hfound, hpeek⟩ := (hc t hnear).get visit.now key
      have hkept : c.Kept { c with near := some (t.get visit.now key).2 } :=
        .of_near hnear hsound httl
      have hserved : c.nearLive visit.now key =
          (t.entries.peek key).filter fun e => e.isLive visit.now := by
        rw [Cache.nearLive, Cache.nearAt_of_some hnear]
      rw [if_pos rfl, if_pos rfl, hserved, ← hfound]
      refine ⟨_, .find hnear (.count .done), ⟨⟨hkept.sound, hkept.setup, hkept.ttl, rfl, rfl⟩, rfl,
        fun k e he => ?_, fun e he => ?_⟩, fun _ hnone => ?_⟩
      · exact (Cache.nearAt_of_some hnear k).trans ((hc t hnear).of_peek_get he)
      · obtain ⟨he, hlive⟩ := Cache.nearLive_eq_some.mp he
        rw [Cache.nearAt_of_some hnear] at he
        have hstays : (t.get visit.now key).2.entries.peek key = some e := by
          rw [hpeek, he, if_neg (by simp [hlive])]
        exact hstays
      · have hgone : (t.get visit.now key).2.entries.peek key = none := by
          rw [hpeek]
          cases he : t.entries.peek key with
          | none => exact ite_self none
          | some e =>
            have hdead : e.isLive visit.now = false := by
              simpa [he, Option.filter_eq_none_iff] using hnone
            rw [if_pos (by simp [hdead])]
        exact hgone

/-- **Writing into the near tier** comes to an end, unless the clock cannot represent the
deadline. -/
lemma putNear_lays (visit : Visit) (key : String) (content : Content) (hs : c.setup = s) :
    (∃ c₁, (s.putNear key content o).Does visit c
        (if s.usesNear o then [.put key content] else []) (.finished ()) c₁ ∧
      s.Laid visit.now key content o c c₁) ∨
    ∃ t, s.usesNear o = true ∧ c.near = some t ∧ t.put visit.now key content o.lifetime = none ∧
      (s.putNear key content o).Does visit c [] .crashed c := by
  unfold putNear
  cases huses : s.usesNear o with
  | false => exact .inl ⟨c, .done, .skipped huses⟩
  | true =>
    rw [if_pos rfl, if_pos rfl]
    cases hnear : c.near with
    | none =>
      rw [usesNear, Cache.near_eq_false hs hnear] at huses
      cases huses
    | some t =>
      cases hput : t.put visit.now key content o.lifetime with
      | none => exact .inr ⟨t, rfl, rfl, hput, .put_crashed hnear hput⟩
      | some t' => exact .inl ⟨_, .put hnear hput .done, .written huses hnear hput⟩

/-- **Dropping a key** is removing it from the near tier, if there is one. -/
lemma dropNear_does (visit : Visit) (key : String) (hs : c.setup = s) :
    (s.dropNear key).Does visit c (if s.near then [.drop key] else []) (.finished ())
      (c.deleteNear key) := by
  unfold dropNear
  cases hnear : c.near with
  | none =>
    have hsame : c.deleteNear key = c := by
      obtain ⟨near, _⟩ := c
      obtain rfl : near = none := hnear
      rfl
    rw [Cache.near_eq_false hs hnear, hsame]
    exact .done
  | some t =>
    rw [Cache.near_eq_true hs hnear]
    exact .drop .done

end Setup

end LayeredCache
