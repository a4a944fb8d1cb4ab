import LayeredCache.Proofs.Cache.Tiers

/-!
# The current bytes of a key

The bytes that were last written under a key, and neither deleted nor healed away since, are its
current bytes. In a cache with a far tier the far tier decides what counts: the near tier may be
written and give its entry up again when the far tier refuses a write, and it gets copies. In a
cache with a near tier only, what the near tier is told counts.

A cache is coherent when everything it holds, expired or not, is the current bytes of its key.
Every part of an operation leads from a coherent cache to a coherent one.

## Main definitions

* `Deed.current` — the current bytes of a key after certain deeds.
* `Cache.Coherent` — the tiers hold current bytes only.
* `Cache.Advanced` — deeds that lead from one cache to another keep it coherent.

## Main results

* `Cache.Advanced.of_follows`, `.of_cleared`, `.of_wrote`, `.of_refused` — look-ups, deletes and
  writes keep a cache coherent.
-/

set_option autoImplicit false

namespace LayeredCache

open Far

/-! ## What counts as a write -/

namespace Deed

/-- What is current under a key after one more deed, in a cache that has a far tier or has none. A
write counts when it is unconditional or the far tier has accepted it. -/
def revise (far : Bool) (key : String) (held : Option Bytes) : Deed → Option Bytes
  | .put k (.stored data) => if far = false ∧ k = key then some data else held
  | .put _ (.native _) => held
  | .drop k => if far = false ∧ k = key then none else held
  | .ask (.write condition k data _) (.ok applied) =>
    if (condition = .always ∨ applied = true) ∧ k = key then some data else held
  | .ask (.write _ _ _ _) (.error _) => held
  | .ask (.get _) _ => held
  | .ask (.delete keys) _ => if key ∈ keys then none else held
  | .ask .ping _ => held

/-- The current bytes of a key after certain deeds, the first one first. -/
def current (far : Bool) (key : String) (ds : List Deed) : Option Bytes :=
  ds.foldl (revise far key) none

variable {far : Bool} {key : String}

/-- The current bytes after more deeds. -/
lemma current_append (past ds : List Deed) :
    current far key (past ++ ds) = ds.foldl (revise far key) (current far key past) :=
  List.foldl_append

/-- A look-up does not change what is current. -/
lemma IsLook.revise_eq {d : Deed} (h : d.IsLook far) (held : Option Bytes) :
    revise far key held d = held := by
  cases d with
  | put k content =>
    obtain rfl : far = true := h
    cases content with
    | stored data => simp [revise]
    | native value => rfl
  | drop k => cases h
  | ask request answer =>
    cases request with
    | get k => rfl
    | write => cases h
    | delete => cases h
    | ping => cases h

/-- Look-ups do not change what is current. -/
lemma current_append_looks (past : List Deed) {ds : List Deed} (h : ∀ d ∈ ds, d.IsLook far) :
    current far key (past ++ ds) = current far key past := by
  rw [current_append]
  induction ds with
  | nil => rfl
  | cons d ds ih =>
    rw [List.foldl_cons, (h d List.mem_cons_self).revise_eq]
    exact ih fun d' hd' => h d' (List.mem_cons_of_mem d hd')

end Deed

namespace Setup

variable {s : Setup} {o : CallOptions}

/-- Removing a key from both tiers leaves the other keys current. -/
lemma current_clearing (past : List Deed) {k key : String} (hk : k ≠ key) :
    Deed.current s.far k (past ++ s.clearing key) = Deed.current s.far k past := by
  rw [Deed.current_append]
  unfold clearing
  cases s.near with
  | true => cases s.far <;> simp [Deed.revise, hk, Ne.symm hk]
  | false => cases s.far <;> simp [Deed.revise, hk]

/-- A write that is applied makes its bytes current, and leaves the other keys alone. -/
lemma current_writing (past : List Deed) (k key : String) (data : Bytes)
    (htier : s.hasTier = true) :
    Deed.current s.far k (past ++ s.writing key (.stored data) data o) =
      if k = key then some data else Deed.current s.far k past := by
  rw [Deed.current_append]
  unfold writing
  unfold hasTier at htier
  by_cases hk : k = key
  · rw [if_pos hk]
    cases hfar : s.far with
    | true => cases s.near <;> simp [Deed.revise, hk]
    | false =>
      rw [hfar, Bool.or_false] at htier
      simp [Deed.revise, htier, hk]
  · rw [if_neg hk]
    cases s.near with
    | true => cases s.far <;> simp [Deed.revise, Ne.symm hk]
    | false => cases s.far <;> simp [Deed.revise, Ne.symm hk]

/-- A write that the far tier refuses changes nothing that is current. -/
lemma current_refusal (past : List Deed) (k key : String) (content : Content) (data : Bytes)
    (hfar : s.far = true) (hcondition : o.condition ≠ .always) :
    Deed.current s.far k (past ++ s.refusal key content data o) = Deed.current s.far k past := by
  rw [Deed.current_append, hfar]
  unfold refusal
  cases s.near with
  | true => cases content <;> simp [Deed.revise, hcondition]
  | false => simp [Deed.revise, hcondition]

end Setup

/-! ## Coherence -/

namespace Cache

/-- Everything the tiers hold, expired or not, is the current bytes of its key. -/
structure Coherent (c : Cache MemoryStore) (past : List Deed) : Prop where
  near : ∀ k e, c.nearAt k = some e →
    ∃ data, e.content = .stored data ∧ Deed.current c.setup.far k past = some data
  far : ∀ k h, c.farAt k = some h → Deed.current c.setup.far k past = some h.data

/-- Certain deeds lead from one cache to another, which is coherent if the first one was. -/
structure Advanced (c : Cache MemoryStore) (ds : List Deed) (c' : Cache MemoryStore) : Prop where
  sound : c'.Sound
  setup : c'.setup = c.setup
  flights : c'.flights = c.flights
  coherent : ∀ past, c.Coherent past → c'.Coherent (past ++ ds)

variable {c c' c'' : Cache MemoryStore} {past ds ds' : List Deed} {key : String}

/-- The near tier and the far tier of a coherent cache agree. -/
lemma Coherent.agree (h : c.Coherent past) {k : String} {e : Entry} {held : Held}
    (he : c.nearAt k = some e) (hh : c.farAt k = some held) : e.content = .stored held.data := by
  obtain ⟨data, hcontent, hdata⟩ := h.near k e he
  obtain rfl := Option.some.inj (hdata.symm.trans (h.far k held hh))
  exact hcontent

/-- Coherence is about the tiers only. -/
lemma Coherent.of_same (h : c.Coherent past) (hnear : c'.near = c.near) (hfar : c'.far = c.far) :
    c'.Coherent past := by
  have hs : c'.setup.far = c.setup.far := congrArg Option.isSome hfar
  refine ⟨fun k e he => ?_, fun k held hh => ?_⟩
  · rw [hs]
    exact h.near k e ((nearAt_congr hnear k).symm.trans he)
  · rw [hs]
    exact h.far k held ((farAt_congr hfar k).symm.trans hh)

/-- A cache without a far tier holds nothing there. -/
lemma farAt_of_setup (h : c.setup.far = false) (k : String) : c.farAt k = none := by
  cases hfar : c.far with
  | none => exact farAt_of_none hfar k
  | some store => cases h.symm.trans (far_eq_true rfl hfar)

namespace Advanced

/-- Doing nothing. -/
lemma refl (h : c.Sound) : c.Advanced [] c where
  sound := h
  setup := rfl
  flights := rfl
  coherent past hc := by rwa [List.append_nil]

/-- One thing after another. -/
lemma trans (h : c.Advanced ds c') (h' : c'.Advanced ds' c'') : c.Advanced (ds ++ ds') c'' where
  sound := h'.sound
  setup := h'.setup.trans h.setup
  flights := h'.flights.trans h.flights
  coherent past hc := by
    rw [← List.append_assoc]
    exact h'.coherent _ (h.coherent past hc)

/-- What leaves the tiers alone, such as counting. -/
lemma of_same (h : c.Sound) (hnear : c'.near = c.near) (hfar : c'.far = c.far)
    (henvelope : c'.envelope = c.envelope) (hflights : c'.flights = c.flights) :
    c.Advanced [] c' where
  sound t ht := h t (hnear ▸ ht)
  setup := by rw [Cache.setup, Cache.setup, hnear, hfar, henvelope]
  flights := hflights
  coherent past hc := by
    rw [List.append_nil]
    exact hc.of_same hnear hfar

/-- **Look-ups** keep a cache coherent: a copy has the bytes of its original. -/
lemma of_follows (h : c.Follows c') (hds : ∀ d ∈ ds, d.IsLook c.setup.far) :
    c.Advanced ds c' where
  sound := h.sound
  setup := h.setup
  flights := h.flights
  coherent past hc := by
    refine ⟨fun k e he => ?_, fun k held hh => ?_⟩
    · rw [h.setup, Deed.current_append_looks past hds]
      rcases h.near k e he with he | ⟨held, hh, hcontent⟩
      · exact hc.near k e he
      · exact ⟨held.data, hcontent, hc.far k held hh⟩
    · rw [h.setup, Deed.current_append_looks past hds]
      exact hc.far k held (h.far k held hh)

/-- **Deletes** keep a cache coherent: nothing is left under the key. -/
lemma of_cleared (h : Setup.Cleared key c c') : c.Advanced (c.setup.clearing key) c' where
  sound := h.sound
  setup := h.setup
  flights := h.flights
  coherent past hc := by
    refine ⟨fun k e he => ?_, fun k held hh => ?_⟩
    · obtain ⟨hk, he⟩ := h.near k e he
      rw [h.setup, Setup.current_clearing past hk]
      exact hc.near k e he
    · obtain ⟨hk, hh⟩ := h.far k held hh
      rw [h.setup, Setup.current_clearing past hk]
      exact hc.far k held hh

variable {o : CallOptions} {data : Bytes} {now : Instant}

/-- **Writes that are applied** keep a cache coherent: both tiers hold the new bytes. -/
lemma of_wrote (h : Setup.Wrote key (.stored data) (Setup.heldOf o now data) c c')
    (htier : c.setup.hasTier = true) :
    c.Advanced (c.setup.writing key (.stored data) data o) c' where
  sound := h.sound
  setup := h.setup
  flights := h.flights
  coherent past hc := by
    refine ⟨fun k e he => ?_, fun k held hh => ?_⟩
    · rw [h.setup, Setup.current_writing past k key data htier]
      by_cases hk : k = key
      · subst hk
        exact ⟨data, h.nearHere e he, if_pos rfl⟩
      · rw [if_neg hk]
        exact hc.near k e (h.near k hk e he)
    · rw [h.setup, Setup.current_writing past k key data htier]
      by_cases hk : k = key
      · subst hk
        cases hfar : c.setup.far with
        | true =>
          obtain rfl := Option.some.inj ((h.farHere hfar).symm.trans hh)
          exact if_pos rfl
        | false =>
          have hnone := farAt_of_setup (h.setup ▸ hfar : c'.setup.far = false) k
          cases hnone.symm.trans hh
      · rw [if_neg hk]
        exact hc.far k held (h.far k hk held hh)

/-- **Writes that are refused** keep a cache coherent: the near tier has forgotten the key. -/
lemma of_refused {content : Content} (h : Setup.Refused key c c') (hfar : c.setup.far = true)
    (hcondition : o.condition ≠ .always) :
    c.Advanced (c.setup.refusal key content data o) c' where
  sound := h.sound
  setup := h.setup
  flights := h.flights
  coherent past hc := by
    refine ⟨fun k e he => ?_, fun k held hh => ?_⟩
    · rw [h.setup, Setup.current_refusal past k key content data hfar hcondition]
      exact hc.near k e (h.near k e he).2
    · rw [h.setup, Setup.current_refusal past k key content data hfar hcondition]
      exact hc.far k held (h.far k held hh)

end Advanced

end Cache

end LayeredCache
