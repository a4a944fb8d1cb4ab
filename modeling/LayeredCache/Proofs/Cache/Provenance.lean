import LayeredCache.Proofs.Cache.Tiers

/-!
# Where entries come from

Entries get into the tiers in two ways only. A write gives both tiers an entry with the lifetime of
the write. A look-up that finds a live entry in the far tier, and none in the near tier, copies it
into the near tier; the far tier tells the bytes of an entry and not its deadline, so the copy gets
the lifetime that the reader's options name.

What look-ups and writes lead to is said here as relations between caches that compose, and carried
over to programs, however far they come.

## Main definitions

* `Cache.longest` — the longest lifetime that the near tier gives to an entry.
* `Cache.Copied` — an entry of the near tier that a look-up makes.
* `Cache.Searched`, `Cache.Stocked` — what look-ups and writes lead to.
* `Cache.Worked` — look-ups that a write may follow.
* `Prog.Leads` — what a program leads to, however far it comes.

## Main results

* `Cache.Searched.trans`, `Cache.Stocked.trans` — one after the other.
* `Prog.Leads.bind` — programs in a row.
-/

set_option autoImplicit false

namespace LayeredCache

open Far

namespace Cache

/-- The longest lifetime that the near tier gives to an entry: its default stands for none. -/
def longest {σ : Type} (c : Cache σ) (life : Span) : Span :=
  if life = 0 then (c.near.map NearTier.defaultTtl).getD 0 else life

/-- A sound near tier in a cache of the same make. -/
structure Alike (c c' : Cache MemoryStore) : Prop where
  sound : c'.Sound
  setup : c'.setup = c.setup
  ttl : c'.near.map NearTier.defaultTtl = c.near.map NearTier.defaultTtl

/-- What a look-up makes of a live entry of the far tier when the near tier has none. -/
structure Copied (c : Cache MemoryStore) (now : Instant) (key : String) (o : CallOptions)
    (e : Entry) : Prop where
  stale : c.nearLive now key = none
  original : ∃ h, c.farLive now key = some h ∧ e.content = .stored h.data
  /-- The copy lasts as long as the reader's options say. -/
  deadline : e.deadline ≤ now + c.longest o.lifetime

/-- A cache after look-ups, and after what drops entries. -/
structure Searched (now : Instant) (key : String) (o : CallOptions) (c c' : Cache MemoryStore) :
    Prop extends Alike c c' where
  near : ∀ k e, c'.nearAt k = some e → c.nearAt k = some e ∨ k = key ∧ c.Copied now key o e
  far : ∀ k h, c'.farAt k = some h → c.farAt k = some h
  /-- A live entry of the near tier stays, unless the key is dropped from both tiers. -/
  fresh : ∀ e, c.nearLive now key = some e → c'.nearAt key = some e ∨ c'.farAt key = none

/-- A cache after a write under a key of one of the contents, with their stored forms, that are on
offer. -/
structure Stocked (now : Instant) (key : String) (o : CallOptions)
    (offer : Content → Bytes → Prop) (c c' : Cache MemoryStore) : Prop extends Alike c c' where
  near : ∀ k e, c'.nearAt k = some e → c.nearAt k = some e ∨
    k = key ∧ e.deadline ≤ now + c.longest o.lifetime ∧ ∃ data, offer e.content data
  far : ∀ k h, c'.farAt k = some h → c.farAt k = some h ∨
    k = key ∧ h = Setup.heldOf o now h.data ∧ ∃ content, offer content h.data

/-- A cache after look-ups that a write may follow. -/
def Worked (now : Instant) (key : String) (o : CallOptions) (offer : Content → Bytes → Prop)
    (c c' : Cache MemoryStore) : Prop :=
  ∃ c₁, Searched now key o c c₁ ∧ Stocked now key o offer c₁ c'

variable {now : Instant} {key : String} {o : CallOptions} {offer : Content → Bytes → Prop}
  {c c' c'' : Cache MemoryStore}

namespace Alike

lemma trans (h : Alike c c') (h' : Alike c' c'') : Alike c c'' :=
  ⟨h'.sound, h'.setup.trans h.setup, h'.ttl.trans h.ttl⟩

/-- What requests to the tiers lead to. -/
lemma of_kept (h : c.Kept c') : Alike c c' := ⟨h.sound, h.setup, h.ttl⟩

/-- What leaves the tiers alone, such as counting. -/
lemma of_same (h : c.Sound) (hnear : c'.near = c.near) (hfar : c'.far = c.far)
    (henvelope : c'.envelope = c.envelope) : Alike c c' where
  sound t ht := h t (hnear ▸ ht)
  setup := by rw [Cache.setup, Cache.setup, hnear, hfar, henvelope]
  ttl := by rw [hnear]

/-- The longest lifetimes stay the same. -/
lemma longest_eq (h : Alike c c') (life : Span) : c'.longest life = c.longest life := by
  rw [longest, longest, h.ttl]

end Alike

namespace Searched

/-- What leaves the tiers alone. -/
lemma of_same (h : c.Sound) (hnear : c'.near = c.near) (hfar : c'.far = c.far)
    (henvelope : c'.envelope = c.envelope) : Searched now key o c c' where
  toAlike := .of_same h hnear hfar henvelope
  near k _ he := .inl ((nearAt_congr hnear k).symm.trans he)
  far k _ hh := (farAt_congr hfar k).symm.trans hh
  fresh _ he := .inl ((nearAt_congr hnear key).trans (nearLive_eq_some.mp he).1)

lemma refl (h : c.Sound) : Searched now key o c c := .of_same h rfl rfl rfl

/-- **Look-ups after look-ups.** A copy that the second ones make was possible from the start: when
the near tier had a live entry then, it has it still, or there is nothing to be copied. -/
lemma trans (h : Searched now key o c c') (h' : Searched now key o c' c'') :
    Searched now key o c c'' where
  toAlike := h.toAlike.trans h'.toAlike
  near k e he := by
    rcases h'.near k e he with he | ⟨rfl, hcopied⟩
    · exact h.near k e he
    · obtain ⟨held, hheld, hcontent⟩ := hcopied.original
      obtain ⟨hh, hlive⟩ := farLive_eq_some.mp hheld
      refine .inr ⟨rfl, ?_, ⟨held, farLive_eq_some.mpr ⟨h.far k held hh, hlive⟩, hcontent⟩, ?_⟩
      · cases he₀ : c.nearLive now k with
        | none => rfl
        | some e₀ =>
          rcases h.fresh e₀ he₀ with hkept | hnone
          · have hlive₀ := (nearLive_eq_some.mp he₀).2
            cases hcopied.stale.symm.trans (nearLive_eq_some.mpr ⟨hkept, hlive₀⟩)
          · cases hnone.symm.trans hh
      · rw [← h.longest_eq]
        exact hcopied.deadline
  far k held hh := h.far k held (h'.far k held hh)
  fresh e he := by
    rcases h.fresh e he with hkept | hnone
    · exact h'.fresh e (nearLive_eq_some.mpr ⟨hkept, (nearLive_eq_some.mp he).2⟩)
    · right
      cases hh : c''.farAt key with
      | none => rfl
      | some held => cases hnone.symm.trans (h'.far key held hh)

/-- Removing the key from both tiers. -/
lemma of_cleared (h : Setup.Cleared key c c') : Searched now key o c c' where
  sound := h.sound
  setup := h.setup
  ttl := h.ttl
  near k e he := .inl (h.near k e he).2
  far k held hh := (h.far k held hh).2
  fresh _ _ := by
    right
    cases hh : c'.farAt key with
    | none => rfl
    | some held => exact absurd rfl (h.far key held hh).1

end Searched

namespace Stocked

/-- What leaves the tiers alone. -/
lemma of_same (h : c.Sound) (hnear : c'.near = c.near) (hfar : c'.far = c.far)
    (henvelope : c'.envelope = c.envelope) : Stocked now key o offer c c' where
  toAlike := .of_same h hnear hfar henvelope
  near k _ he := .inl ((nearAt_congr hnear k).symm.trans he)
  far k _ hh := .inl ((farAt_congr hfar k).symm.trans hh)

lemma refl (h : c.Sound) : Stocked now key o offer c c := .of_same h rfl rfl rfl

/-- Writes after writes of the same offer. -/
lemma trans (h : Stocked now key o offer c c') (h' : Stocked now key o offer c' c'') :
    Stocked now key o offer c c'' where
  toAlike := h.toAlike.trans h'.toAlike
  near k e he := by
    rcases h'.near k e he with he | ⟨rfl, hdeadline, hoffer⟩
    · exact h.near k e he
    · exact .inr ⟨rfl, h.longest_eq o.lifetime ▸ hdeadline, hoffer⟩
  far k held hh := by
    rcases h'.far k held hh with hh | hnew
    · exact h.far k held hh
    · exact .inr hnew

end Stocked

namespace Worked

lemma of_searched (h : Searched now key o c c') : Worked now key o offer c c' :=
  ⟨c', h, .refl h.sound⟩

lemma of_stocked (hc : c.Sound) (h : Stocked now key o offer c c') : Worked now key o offer c c' :=
  ⟨c, .refl hc, h⟩

/-- A cache of the same make. -/
lemma alike (h : Worked now key o offer c c') : Alike c c' := by
  obtain ⟨c₁, hsearched, hstocked⟩ := h
  exact hsearched.toAlike.trans hstocked.toAlike

/-- Look-ups come first. -/
lemma after (h : Searched now key o c c') (h' : Worked now key o offer c' c'') :
    Worked now key o offer c c'' := by
  obtain ⟨c₁, hsearched, hstocked⟩ := h'
  exact ⟨c₁, h.trans hsearched, hstocked⟩

/-- Writes come last. -/
lemma before (h : Worked now key o offer c c') (h' : Stocked now key o offer c' c'') :
    Worked now key o offer c c'' := by
  obtain ⟨c₁, hsearched, hstocked⟩ := h
  exact ⟨c₁, hsearched, hstocked.trans h'⟩

/-- What is on offer may be more. -/
lemma mono {offer' : Content → Bytes → Prop} (h : Worked now key o offer c c')
    (hmore : ∀ content data, offer content data → offer' content data) :
    Worked now key o offer' c c' := by
  obtain ⟨c₁, hsearched, hstocked⟩ := h
  refine ⟨c₁, hsearched, hstocked.toAlike, fun k e he => ?_, fun k held hh => ?_⟩
  · rcases hstocked.near k e he with hold | ⟨hk, hdeadline, data, hoffer⟩
    · exact .inl hold
    · exact .inr ⟨hk, hdeadline, data, hmore _ _ hoffer⟩
  · rcases hstocked.far k held hh with hold | ⟨hk, hheld, content, hoffer⟩
    · exact .inl hold
    · exact .inr ⟨hk, hheld, content, hmore _ _ hoffer⟩

end Worked

end Cache

/-! ## Programs -/

namespace Prog

variable {α β : Type} {visit : Visit} {s : Setup} {key : String} {o : CallOptions}
  {offer : Content → Bytes → Prop}

/-- A program leads from every sound cache of a setup to one in a certain relation to it, however
far it comes; and what it ends with has a certain property. -/
def Leads (visit : Visit) (s : Setup) (R : Cache MemoryStore → Cache MemoryStore → Prop)
    (p : Prog α) (Q : α → Prop) : Prop :=
  ∀ c : Cache MemoryStore, c.Sound → c.setup = s →
    R c (p.run visit c).2 ∧ ∀ a, (p.run visit c).1 = .finished a → Q a

/-- A program of look-ups. -/
abbrev Searches (visit : Visit) (s : Setup) (key : String) (o : CallOptions) (p : Prog α)
    (Q : α → Prop) : Prop :=
  p.Leads visit s (Cache.Searched visit.now key o) Q

/-- A program of writes. -/
abbrev Stocks (visit : Visit) (s : Setup) (key : String) (o : CallOptions)
    (offer : Content → Bytes → Prop) (p : Prog α) : Prop :=
  p.Leads visit s (Cache.Stocked visit.now key o offer) fun _ => True

/-- A program of look-ups that a write may follow. -/
abbrev Works (visit : Visit) (s : Setup) (key : String) (o : CallOptions)
    (offer : Content → Bytes → Prop) (p : Prog α) : Prop :=
  p.Leads visit s (Cache.Worked visit.now key o offer) fun _ => True

variable {p : Prog α} {f : α → Prog β} {Q : α → Prop} {Q' : β → Prop}

/-- **Two programs in a row**, when their relations compose. -/
lemma Leads.bind {R R₁ R₂ : Cache MemoryStore → Cache MemoryStore → Prop}
    (hp : p.Leads visit s R₁ Q) (hf : ∀ a, Q a → (f a).Leads visit s R₂ Q')
    (halike : ∀ c c', R₁ c c' → c.Alike c') (hfirst : ∀ c c', R₁ c c' → R c c')
    (hboth : ∀ c c₁ c', R₁ c c₁ → R₂ c₁ c' → R c c') : (p.bind f).Leads visit s R Q' := by
  intro c hc hs
  obtain ⟨hR, hQ⟩ := hp c hc hs
  rw [run_bind]
  cases hrun : p.run visit c with
  | mk r c₁ =>
    rw [hrun] at hR hQ
    cases r with
    | finished a =>
      have hmake := halike c c₁ hR
      obtain ⟨hR', hQ'⟩ := hf a (hQ a rfl) c₁ hmake.sound (hmake.setup.trans hs)
      exact ⟨hboth c c₁ _ hR hR', hQ'⟩
    | blocked rest => exact ⟨hfirst c c₁ hR, by simp [resume]⟩
    | crashed => exact ⟨hfirst c c₁ hR, by simp [resume]⟩

/-- A program that is done, after writes. -/
lemma Stocks.done {a : α} : (Prog.done a).Stocks visit s key o offer :=
  fun _ hc _ => ⟨.refl hc, fun _ _ => trivial⟩

/-- Writes after writes. -/
lemma Stocks.bind (hp : p.Stocks visit s key o offer)
    (hf : ∀ a, (f a).Stocks visit s key o offer) : (p.bind f).Stocks visit s key o offer :=
  Leads.bind hp (fun a _ => hf a) (fun _ _ h => h.toAlike) (fun _ _ h => h)
    fun _ _ _ h h' => h.trans h'

/-- Writes are work. -/
lemma Stocks.works (hp : p.Stocks visit s key o offer) : p.Works visit s key o offer :=
  fun c hc hs => ⟨.of_stocked hc (hp c hc hs).1, fun _ _ => trivial⟩

/-- Work after look-ups. -/
lemma Works.after (hp : p.Searches visit s key o Q)
    (hf : ∀ a, Q a → (f a).Works visit s key o offer) : (p.bind f).Works visit s key o offer :=
  Leads.bind hp hf (fun _ _ h => h.toAlike) (fun _ _ h => .of_searched h)
    fun _ _ _ h h' => h'.after h

/-- Writes after work. -/
lemma Works.bind_stocks (hp : p.Works visit s key o offer)
    (hf : ∀ a, (f a).Stocks visit s key o offer) : (p.bind f).Works visit s key o offer :=
  Leads.bind hp (fun a _ => hf a) (fun _ _ h => h.alike) (fun _ _ h => h)
    fun _ _ _ h h' => h.before h'

end Prog

end LayeredCache
