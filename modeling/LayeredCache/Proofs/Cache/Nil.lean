import LayeredCache.Proofs.Cache.ReadBack
import LayeredCache.Proofs.Cache.Taking

/-!
# Values that are stored as nothing

Some values have an empty stored form: nothing itself, what is optional and absent, empty texts and
byte strings. Bytes that are empty are read as nothing, so that a reader of such an entry finds it
and its destination stays as it was. The near tier may keep the value itself instead, and gives it
back like every other value: then the destination is overwritten, and which of the two happens to a
reader depends on the tier that answers.

## Main definitions

* `Setup.ReadsNil` — what storing such a value means for the next look-up.

## Main results

* `Setup.StoreEnds.served` — what was written is served.
* `Setup.reads_nil` — look-ups after storing such a value, whichever tier answers.
* `Setup.nil_overwrites` — a destination is overwritten with nothing.
-/

set_option autoImplicit false

namespace LayeredCache

open Far

namespace Setup

variable {c c' : Cache MemoryStore} {visit : Visit} {ty : Ty} {key : String} {v : Value}
  {data : Bytes} {o o' : CallOptions}

/-- Storing a value that has a stored form ends well when the clock can represent the deadlines in
the tiers that the call uses. -/
lemma set_ends_well (hc : c.Reached) (hencode : c.envelope.encode ty v = .ok data)
    (huses : c.setup.usesNear o = true ∨ c.setup.usesFar o = true) (visit : Visit) (key : String)
    (hrep : c.setup.usesFar o = true → MemoryStore.Representable visit.now o.lifetime)
    (hafford : c.setup.usesNear o = true → c.Affords visit.now o.lifetime) :
    ((c.setup.set ty key v o).visit visit c).1 = .finished (.ok ()) := by
  rw [set_eq_store (s := c.setup) hencode]
  exact Prog.visit_of_run
    ((store_ends visit ty key v data hc.sound rfl huses).ends_well hrep hafford)

/-- A call that stores a value and ends well comes to an end that is listed. -/
lemma StoreEnds.of_set (hc : c.Reached) (hencode : c.envelope.encode ty v = .ok data)
    (huses : c.setup.usesNear o = true ∨ c.setup.usesFar o = true)
    (h : (c.setup.set ty key v o).visit visit c = (.finished (.ok ()), c')) :
    c'.Sound ∧
      c.setup.StoreEnds visit key (contentOf ty v data o) data o c (.finished (.ok ())) c' := by
  have hc' := (hc.visit visit (c.setup.set ty key v o)).sound
  have hends := store_ends visit ty key v data hc.sound rfl huses
  rw [h] at hc'
  rw [set_eq_store (s := c.setup) hencode, Prog.visit_eq_finished_iff] at h
  rw [h] at hends
  exact ⟨hc', hends⟩

/-- What the near tier holds for a value whose stored form is empty is read as the value if it is
held as it is, and as nothing otherwise. -/
lemma read_contentOf_nil (hty : ty ≠ .scalar .literal) (hadmits : Ty.admits ty ty v = true)
    (o : CallOptions) :
    (contentOf ty v [] o).read ty = .ok (if o.raw then some v else none) := by
  unfold contentOf
  cases o.raw with
  | true =>
    rw [if_pos rfl, if_pos rfl, Content.read, Native.extract_of hty hadmits]
  | false =>
    rw [if_neg Bool.false_ne_true, if_neg Bool.false_ne_true]
    rfl

/-- **What was written is served** by each tier that the call uses, if the write was applied. -/
lemma StoreEnds.served (h : c.setup.StoreEnds visit key (contentOf ty v data o) data o c
      (.finished (.ok ())) c') (hc : c.Reached) (htakes : c.Takes visit.now key data o) :
    (c.setup.usesNear o = true → ∃ e, c'.nearLive visit.now key = some e) ∧
      (c.setup.usesFar o = true → ∃ held, c'.farLive visit.now key = some held) := by
  obtain ⟨-, hnear, hfar⟩ := h.fresh hc htakes
  refine ⟨fun uses => ?_, fun uses => ⟨_, Cache.farLive_eq_some.mpr ⟨hfar uses, ?_⟩⟩⟩
  · obtain ⟨deadline, hlate, he⟩ := hnear uses
    exact ⟨_, Cache.nearLive_eq_some.mpr ⟨he, decide_eq_true hlate⟩⟩
  · by_cases hzero : o.lifetime = 0
    · simp [Held.isExpired, hzero]
    · have hlate : visit.now < visit.now + o.lifetime :=
        Nat.lt_add_of_pos_right (Nat.pos_of_ne_zero hzero)
      rw [if_neg hzero]
      exact decide_eq_false (Nat.not_le.mpr hlate)

/-- **A look-up that the near tier answers** reads what the call has kept there.

**Proof sketch.** The entry is still the one that the call has made. -/
lemma get_of_kept {e : Entry} {visit' : Visit} (hc' : c'.Sound) (hc : c.Reached)
    (hty : ty ≠ .scalar .literal) (hadmits : Ty.admits ty ty v = true)
    (h : c.setup.StoreEnds visit key (contentOf ty v [] o) [] o c (.finished (.ok ())) c')
    (htakes : c.Takes visit.now key [] o) (huses : c.setup.usesNear o = true)
    (hskip : o'.skip = o.skip) (he : c'.nearLive visit'.now key = some e) :
    ((c'.setup.get ty key o').visit visit' c').1 =
      .finished (.ok (if o.raw then some v else none)) := by
  obtain ⟨hs', hhere, -⟩ := h.entries hc htakes
  obtain ⟨deadline, hentry⟩ := hhere huses
  obtain rfl := Option.some.inj (hentry.symm.trans (Cache.nearLive_eq_some.mp he).1)
  have huses' : c'.setup.usesNear o' = true := by
    rw [hs', (uses_congr hskip).1]
    exact huses
  have hread := lookup_near_run visit' ty key hc' rfl huses' he
  rw [read_contentOf_nil hty hadmits] at hread
  exact Prog.visit_of_run hread

/-- **A look-up that the far tier answers** reads the stored form. -/
lemma get_of_stored {held : Held} {visit' : Visit} (hc' : c'.Sound) (hc : c.Reached)
    (h : c.setup.StoreEnds visit key (contentOf ty v [] o) [] o c (.finished (.ok ())) c')
    (htakes : c.Takes visit.now key [] o) (huses : c.setup.usesFar o = true)
    (hskip : o'.skip = o.skip) (hlive : c'.farLive visit'.now key = some held)
    (hstale : c.setup.usesNear o = true →
      c'.nearLive visit'.now key = none ∧ c'.Affords visit'.now o'.lifetime) :
    ((c'.setup.get ty key o').visit visit' c').1 = .finished (.ok none) := by
  obtain ⟨hs', -, hthere⟩ := h.entries hc htakes
  obtain ⟨held', hentry, hdata⟩ := hthere huses
  obtain rfl := Option.some.inj (hentry.symm.trans (Cache.farLive_eq_some.mp hlive).1)
  have hnear : c'.setup.usesNear o' = c.setup.usesNear o := by
    rw [hs', (uses_congr hskip).1]
  have hfar : c'.setup.usesFar o' = true := by
    rw [hs', (uses_congr hskip).2]
    exact huses
  have hrun := lookup_far_run visit' ty key hc' rfl hfar
    (fun uses => (hstale (hnear.symm.trans uses)).1)
    (fun uses => (hstale (hnear.symm.trans uses)).2)
  rw [hlive] at hrun
  dsimp only at hrun
  rw [hdata] at hrun
  exact Prog.visit_of_run hrun

/-- What a call that stores a value `v` of type `ty`, whose stored form is empty, means for the next
look-up of the key at this type. -/
structure ReadsNil (c : Cache MemoryStore) (visit : Visit) (ty : Ty) (key : String) (v : Value)
    (o : CallOptions) : Prop where
  /-- It ends well when the clock can represent the deadlines in the tiers that it uses. -/
  ends : (c.setup.usesFar o = true → MemoryStore.Representable visit.now o.lifetime) →
    (c.setup.usesNear o = true → c.Affords visit.now o.lifetime) →
      ((c.setup.set ty key v o).visit visit c).1 = .finished (.ok ())
  /-- When it ends well and the write is applied, the near tier serves the key at first if the call
  uses this tier. For as long as it does, a look-up that leaves the same tiers alone succeeds. It
  sets the destination to the value if the call kept the value as it is, and leaves the destination
  alone otherwise. -/
  near : ∀ c', (c.setup.set ty key v o).visit visit c = (.finished (.ok ()), c') →
    c.Takes visit.now key [] o → c.setup.usesNear o = true →
      (∃ e, c'.nearLive visit.now key = some e) ∧
      ∀ visit' o', o'.skip = o.skip → (∃ e, c'.nearLive visit'.now key = some e) →
        ((c'.setup.get ty key o').visit visit' c').1 =
          .finished (.ok (if o.raw then some v else none))
  /-- So does the far tier, if the call uses it. For as long as it does, a look-up that the near
  tier does not answer succeeds and leaves the destination alone. -/
  far : ∀ c', (c.setup.set ty key v o).visit visit c = (.finished (.ok ()), c') →
    c.Takes visit.now key [] o → c.setup.usesFar o = true →
      (∃ h, c'.farLive visit.now key = some h) ∧
      ∀ visit' o', o'.skip = o.skip → (∃ h, c'.farLive visit'.now key = some h) →
        (c.setup.usesNear o = true →
          c'.nearLive visit'.now key = none ∧ c'.Affords visit'.now o'.lifetime) →
            ((c'.setup.get ty key o').visit visit' c').1 = .finished (.ok none)

/-- **A value that is stored as nothing** is read as nothing from its stored form, in both tiers,
and as itself from the near tier when it is kept there as it is.

**Proof sketch.** By the end that storing comes to. When the write is applied each tier that the
call uses has an entry for the value, which holds no bytes, or the value itself. -/
theorem reads_nil (hc : c.Reached) (hty : ty ≠ .scalar .literal)
    (hadmits : Ty.admits ty ty v = true) (hencode : c.envelope.encode ty v = .ok [])
    (huses : c.setup.usesNear o = true ∨ c.setup.usesFar o = true) (visit : Visit)
    (key : String) : ReadsNil c visit ty key v o := by
  refine ⟨set_ends_well hc hencode huses visit key, fun c' hfinished htakes hnear => ?_,
    fun c' hfinished htakes hfar => ?_⟩
  · obtain ⟨hc', hends⟩ := StoreEnds.of_set hc hencode huses hfinished
    refine ⟨(hends.served hc htakes).1 hnear, ?_⟩
    rintro visit' o' hskip ⟨e, he⟩
    exact get_of_kept hc' hc hty hadmits hends htakes hnear hskip he
  · obtain ⟨hc', hends⟩ := StoreEnds.of_set hc hencode huses hfinished
    refine ⟨(hends.served hc htakes).2 hfar, ?_⟩
    rintro visit' o' hskip ⟨held, hlive⟩ hstale
    exact get_of_stored hc' hc hends htakes hfar hskip hlive hstale

/-- The near tier is new. -/
lemma near_narrowTiers : narrowTiers.near = NearTier.new (fun _ => 0) (fun _ => 0) 1 0 := rfl

/-- The near tier is one that its operations lead to. -/
lemma reached_narrowTiers : narrowTiers.Reached := .of_new near_narrowTiers

/-- Storing an empty byte string in the two tiers ends well. -/
lemma set_narrowTiers :
    (narrowTiers.setup.set .octets "k" (.octets []) { raw := true }).visit ⟨0, 0, none⟩
        narrowTiers =
      (.finished (.ok ()),
        ((narrowTiers.setup.set .octets "k" (.octets []) { raw := true }).visit ⟨0, 0, none⟩
          narrowTiers).2) :=
  Prod.ext (set_ends_well reached_narrowTiers rfl (.inr rfl) _ _ (fun _ h => absurd rfl h)
    fun _ => Cache.affords_new near_narrowTiers) rfl

/-- An empty byte string is read as nothing from the far tier, and comes back from the near tier. -/
theorem reads_nil_octets :
    narrowTiers.Reached ∧ narrowTiers.envelope.encode .octets (.octets []) = .ok [] ∧
      ReadsNil narrowTiers ⟨0, 0, none⟩ .octets "k" (.octets []) { raw := true } :=
  ⟨reached_narrowTiers, rfl,
    reads_nil reached_narrowTiers (by rintro ⟨⟩) rfl rfl (.inr rfl) ⟨0, 0, none⟩ "k"⟩

/-- **A destination is overwritten with nothing**, although the value was stored as nothing: an
empty byte string was kept as it is in the near tier, and a reader whose destination held a byte is
left with none. -/
theorem nil_overwrites :
    ¬ ∀ (c : Cache MemoryStore), c.Reached → ∀ (ty : Ty) (v : Value), ty ≠ .scalar .literal →
      Ty.admits ty ty v = true → c.envelope.encode ty v = .ok [] →
      ∀ (key : String) (o : CallOptions), o.condition = .always →
      (c.setup.usesNear o = true ∨ c.setup.usesFar o = true) →
      ∀ (visit : Visit) (c' : Cache MemoryStore),
        (c.setup.set ty key v o).visit visit c = (.finished (.ok ()), c') →
      ∀ visit' : Visit,
        (c.setup.usesNear o = true → ∃ e, c'.nearLive visit'.now key = some e) →
        (c.setup.usesFar o = true → ∃ h, c'.farLive visit'.now key = some h) →
      ∀ dest : Value, destAfter dest ((c'.setup.get ty key o).visit visit' c').1 = dest := by
  intro halone
  have hencode : narrowTiers.envelope.encode .octets (.octets []) = .ok [] := rfl
  obtain ⟨hc', hends⟩ := StoreEnds.of_set reached_narrowTiers hencode (.inr rfl) set_narrowTiers
  have htakes : narrowTiers.Takes 0 "k" [] { raw := true } := .inl rfl
  obtain ⟨hnear, hfar⟩ := hends.served reached_narrowTiers htakes
  obtain ⟨e, he⟩ := hnear rfl
  have hread := get_of_kept hc' reached_narrowTiers (by rintro ⟨⟩) rfl hends htakes rfl rfl he
  have hdest := halone narrowTiers reached_narrowTiers .octets (.octets []) (by rintro ⟨⟩) rfl rfl
    "k" { raw := true } rfl (.inr rfl) _ _ set_narrowTiers ⟨0, 0, none⟩ hnear hfar (.octets [1])
  rw [hread] at hdest
  cases hdest

end Setup

end LayeredCache
