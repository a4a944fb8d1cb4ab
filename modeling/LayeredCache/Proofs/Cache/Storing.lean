import LayeredCache.Proofs.Cache.Requests

/-!
# How a write ends

A call that stores a value writes first into the near tier and then into the far one, and each
write may come to nothing: the call may leave the tier alone, the clock may not be able to represent
the deadline, the far tier may fail, or refuse what a condition does not allow. Here all the ends
that this can come to are listed once, for every setting of the options and over any far tier.

The caches that are considered are those whose near tier was made by its own operations. Whatever
programs do, they lead from such caches to such caches.

## Main definitions

* `Cache.Reached` — caches whose near tier is one that its operations lead to.
* `Setup.StoreEnds` — the ends that storing a value can come to.

## Main results

* `Cache.Reached.visit` — programs lead from reached caches to reached caches.
* `Setup.store_ends` — storing a value comes to one of the ends.
-/

set_option autoImplicit false

namespace LayeredCache

/-! ## Caches that are reached -/

/-- The default lifetime of a tier is never zero. -/
lemma NearTier.Reached.defaultTtl_pos {t : NearTier} (h : t.Reached) : 0 < t.defaultTtl := by
  induction h with
  | new h =>
    rw [NearTier.defaultTtl_new h]
    decide
  | withTtl _ ttl ih =>
    unfold NearTier.withTtl
    split
    · exact ih
    · rename_i httl
      exact Nat.pos_of_ne_zero httl
  | get h now key ih => exact (h.sound.get now key).2.1 ▸ ih
  | put h hput ih => exact (h.sound.put hput).2.1 ▸ ih
  | delete _ key ih => exact ih
  | clear _ ih => exact ih

namespace Cache

variable {σ : Type}

/-- A cache whose near tier, if it has one, is one that the operations of this tier lead to. Nothing
is asked of its far tier, which others may use as well, nor of its counters and shared runs. -/
def Reached (c : Cache σ) : Prop := ∀ t, c.near = some t → t.Reached

namespace Reached

variable {c : Cache σ}

/-- The near tier of a reached cache is sound. -/
lemma sound (h : c.Reached) : c.Sound := fun t ht => (h t ht).sound

/-- A new near tier. -/
lemma of_new {hash : String → UInt64} {draws : Nat → Nat} {size samples : Nat}
    (h : c.near = NearTier.new hash draws size samples) : c.Reached :=
  fun _ ht => .new (h.symm.trans ht)

/-- Another near tier. -/
lemma of_near {t : NearTier} (ht : t.Reached) : ({ c with near := some t } : Cache σ).Reached :=
  fun _ hu => Option.some.inj hu ▸ ht

/-- Removing a key from the near tier. -/
lemma deleteNear (h : c.Reached) (key : String) : (c.deleteNear key).Reached := by
  intro t ht
  obtain ⟨u, hu, rfl⟩ := Option.map_eq_some_iff.mp ht
  exact (h u hu).delete key

variable [FarStore σ] {α : Type}

/-- **A program** leads from a reached cache to a reached cache, however far it comes.

**Proof sketch.** Induction on the program. Only its requests to the near tier change this tier, and
each of them is an operation of it. -/
theorem run (h : c.Reached) (v : Visit) (p : Prog α) : (p.run v c).2.Reached := by
  induction p generalizing c with
  | done a => exact h
  | find key next ih =>
    simp only [Prog.run]
    cases hnear : c.near with
    | none => exact ih none h
    | some t => exact ih _ (of_near ((h t hnear).get v.now key))
  | holds key next ih => exact ih _ h
  | put key content ttl next ih =>
    simp only [Prog.run]
    cases hnear : c.near with
    | none => exact ih h
    | some t =>
      dsimp only
      cases hput : t.put v.now key content ttl with
      | none => exact h
      | some t' => exact ih (of_near ((h t hnear).put hput))
  | drop key next ih => exact ih (h.deleteNear key)
  | call request next ih =>
    simp only [Prog.run]
    cases hfar : c.far with
    | none => exact ih (.error .missing) h
    | some far =>
      dsimp only
      rcases FarStore.answer far v.now request with ⟨value | cause | _, far'⟩
      · exact ih (.ok value) h
      · exact ih (.error cause) h
      · exact h
  | tally found next ih => exact ih h
  | count event next ih => exact ih h
  | startLoad next ih => exact ih h
  | awaitLoad next ih =>
    simp only [Prog.run]
    cases v.loaded with
    | none => exact h
    | some answer => exact ih answer h
  | join key next ih =>
    simp only [Prog.run]
    cases (c.flights.join v.caller key).turn v.caller with
    | collect outcome => exact ih (some outcome) h
    | start => exact ih none h
    | outside => exact h
    | wait => exact h
    | running => exact h
  | land outcome next ih => exact ih h

/-- **A caller** who runs a program leads from a reached cache to a reached cache. -/
theorem visit (h : c.Reached) (v : Visit) (p : Prog α) : (p.visit v c).2.Reached := by
  have hrun := h.run v p
  unfold Prog.visit
  cases hend : p.run v c with
  | mk r c' =>
    rw [hend] at hrun
    cases r <;> exact hrun

end Reached

/-- At first the clock can represent the standard lifetime. -/
lemma affords_new {c : Cache σ} {hash : String → UInt64} {draws : Nat → Nat} {size samples : Nat}
    (h : c.near = NearTier.new hash draws size samples) : c.Affords 0 0 := by
  intro t ht
  rw [if_pos rfl, NearTier.defaultTtl_new (h.symm.trans ht)]
  decide

end Cache

/-! ## Callers whose programs end -/

namespace Prog

variable {α σ : Type} [FarStore σ] {visit : Visit} {p : Prog α} {c c' : Cache σ} {a : α}

/-- A caller whose program ends leaves the cache as the program does. -/
lemma visit_eq_finished_iff :
    p.visit visit c = (.finished a, c') ↔ p.run visit c = (.finished a, c') := by
  unfold Prog.visit
  rcases p.run visit c with ⟨_ | _ | _, _⟩
  · exact Iff.rfl
  · exact Iff.rfl
  · exact iff_of_false (by simp) (by simp)

/-- Callers whose programs run alike. -/
lemma visit_congr {q : Prog α} {d : Cache σ} (h : p.run visit c = q.run visit d) :
    p.visit visit c = q.visit visit d := by
  rw [Prog.visit, Prog.visit, h]

/-- What a program gives, its caller gives. -/
lemma visit_of_run (h : (p.run visit c).1 = .finished a) : (p.visit visit c).1 = .finished a := by
  have hrun : p.run visit c = (.finished a, (p.run visit c).2) := Prod.ext h rfl
  rw [visit_eq_finished_iff.mpr hrun]

end Prog

/-! ## Storing a value -/

namespace Setup

variable {σ : Type} {s : Setup} {o : CallOptions} {visit : Visit} {key : String} {ty : Ty}
  {v : Value} {content : Content} {data : Bytes} {c c' : Cache σ}

/-- **What was written** into the near tier is there, and is not expired.

**Proof sketch.** At most a tenth is taken off the lifetime, which is not zero. -/
lemma Laid.here {now : Instant} {c₁ : Cache σ} (h : s.Laid now key content o c c₁)
    (hc : c.Reached) (huses : s.usesNear o = true) :
    ∃ deadline, now < deadline ∧ c₁.nearAt key = some ⟨content, deadline⟩ := by
  cases h with
  | skipped unused => cases huses.symm.trans unused
  | @written t t' _ near put =>
    have ht := hc t near
    refine ⟨_, ?_, (Cache.nearAt_of_some rfl key).trans (ht.sound.peek_put put)⟩
    have hpos : 0 < if o.lifetime = 0 then t.defaultTtl else o.lifetime := by
      split
      · exact ht.defaultTtl_pos
      · rename_i hne
        exact Nat.pos_of_ne_zero hne
    have hle := NearTier.le_jittered t.defaultTtl o.lifetime (t.draws t.drawn)
    generalize (if o.lifetime = 0 then t.defaultTtl else o.lifetime) = life at hpos hle
    have htenth : life / 10 < life := Nat.div_lt_self hpos (by decide)
    exact Nat.lt_add_of_pos_right (Nat.lt_of_lt_of_le (Nat.sub_pos_of_lt htenth) hle)

variable [FarStore σ]

/-- The ends that storing a value with the stored form `data` can come to. -/
inductive StoreEnds (s : Setup) (visit : Visit) (key : String) (content : Content) (data : Bytes)
    (o : CallOptions) (c : Cache σ) : Progress (Except Failure Unit) → Cache σ → Prop
  /-- The clock cannot represent the deadline in the near tier. -/
  | nearCrashed {t : NearTier} (uses : s.usesNear o = true) (near : c.near = some t)
    (put : t.put visit.now key content o.lifetime = none) :
    StoreEnds s visit key content data o c .crashed c
  /-- The far tier is not used. -/
  | alone {c₁ : Cache σ} (laid : s.Laid visit.now key content o c c₁)
    (unused : s.usesFar o = false) :
    StoreEnds s visit key content data o c (.finished (.ok ())) c₁
  /-- The clock cannot represent the deadline in the far tier. -/
  | farCrashed {c₁ : Cache σ} {far far' : σ} (laid : s.Laid visit.now key content o c c₁)
    (uses : s.usesFar o = true) (there : c.far = some far)
    (answer : FarStore.answer far visit.now (.write o.condition key data o.lifetime) =
      (.crash, far')) :
    StoreEnds s visit key content data o c .crashed { c₁ with far := some far' }
  /-- The far tier fails. -/
  | failed {c₁ : Cache σ} {far far' : σ} {cause : Failure}
    (laid : s.Laid visit.now key content o c c₁) (uses : s.usesFar o = true)
    (there : c.far = some far)
    (answer : FarStore.answer far visit.now (.write o.condition key data o.lifetime) =
      (.failure cause, far')) :
    StoreEnds s visit key content data o c (.finished (.error cause))
      { c₁ with far := some far' }
  /-- The far tier has the entry, or was not asked whether it takes it. -/
  | applied {c₁ : Cache σ} {far far' : σ} {yes : Bool}
    (laid : s.Laid visit.now key content o c c₁) (uses : s.usesFar o = true)
    (there : c.far = some far)
    (answer : FarStore.answer far visit.now (.write o.condition key data o.lifetime) =
      (.reply yes, far')) (taken : yes = true ∨ o.condition = .always) :
    StoreEnds s visit key content data o c (.finished (.ok ())) { c₁ with far := some far' }
  /-- The far tier refuses the entry, and the near tier forgets it. -/
  | refused {c₁ : Cache σ} {far far' : σ} (laid : s.Laid visit.now key content o c c₁)
    (uses : s.usesFar o = true) (there : c.far = some far)
    (answer : FarStore.answer far visit.now (.write o.condition key data o.lifetime) =
      (.reply false, far')) (conditional : o.condition ≠ .always) :
    StoreEnds s visit key content data o c (.finished (.ok ()))
      ({ c₁ with far := some far' }.deleteNear key)

/-- **Storing a value** comes to one of its ends.

**Proof sketch.** By whether the call uses each tier, and then by what the tiers answer. -/
theorem store_ends (visit : Visit) (ty : Ty) (key : String) (v : Value) (data : Bytes)
    (hc : c.Sound) (hs : c.setup = s)
    (huses : s.usesNear o = true ∨ s.usesFar o = true) :
    s.StoreEnds visit key (contentOf ty v data o) data o c
      ((s.store ty key v data o).run visit c).1 ((s.store ty key v data o).run visit c).2 := by
  obtain ⟨htier, hskip⟩ := hasTier_of_uses huses
  unfold store
  rw [hskip, htier]
  simp only [Bool.not_true, Bool.false_eq_true, if_false, Bind.bind, Prog.run_bind]
  rcases putNear_lays visit key (contentOf ty v data o) hs with
    ⟨c₁, hlays, hlaid⟩ | ⟨t, hyes, hnear, hput, hcrashes⟩
  · rw [hlays.run]
    obtain ⟨hkept, hfar₁⟩ := hlaid.kept hc
    simp only [Prog.resume]
    cases hyes : s.usesFar o with
    | false => exact .alone hlaid hyes
    | true =>
      cases hfar : c.far with
      | none =>
        rw [usesFar, Cache.far_eq_false hs hfar] at hyes
        cases hyes
      | some far =>
        simp only [if_true, Prog.run, hfar₁, hfar]
        rcases hanswer : FarStore.answer far visit.now (.write o.condition key data o.lifetime) with
          ⟨yes | cause | _, far'⟩
        · by_cases htaken : yes = true ∨ o.condition = .always
          · have hnext : (yes || o.condition == .always) = true := by
              rw [Bool.or_eq_true, beq_iff_eq]
              exact htaken
            simp only [hnext, if_true]
            exact .applied hlaid hyes hfar hanswer htaken
          · have hnext : (yes || o.condition == .always) = false := by
              rw [← Bool.not_eq_true, Bool.or_eq_true, beq_iff_eq]
              exact htaken
            obtain ⟨hno, hconditional⟩ := not_or.mp htaken
            obtain rfl : yes = false := Bool.eq_false_iff.mpr hno
            have hs₂ : ({ c₁ with far := some far' } : Cache σ).setup = s :=
              (Cache.Kept.of_far hkept.sound (hfar₁.trans hfar) far').setup.trans
                (hkept.setup.trans hs)
            simp only [hnext, if_false, Bool.false_eq_true, Prog.run_bind,
              (dropNear_does visit key hs₂).run]
            exact .refused hlaid hyes hfar hanswer hconditional
        · exact .failed hlaid hyes hfar hanswer
        · exact .farCrashed hlaid hyes hfar hanswer
  · rw [hcrashes.run]
    exact .nearCrashed hyes hnear hput

end Setup

end LayeredCache
