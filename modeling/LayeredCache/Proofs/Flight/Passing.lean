import LayeredCache.Proofs.Flight.Order

/-!
# Calls while one caller acts

A caller that joins, begins to run, lands or leaves changes its own seat. The others stay where
they are, and those in a complete call keep its output. A caller that is in no call of a key
changes nothing about the calls of that key.

## Main definitions

* `Flight.Group.Passes` — what a caller leaves to the others.
* `Flight.Group.Spares` — what a caller leaves to the callers of a key with which it has nothing
  to do.

## Main results

* `Flight.Group.Passes.join`, `.start`, `.leave`, `.land` — each operation of a caller passes.
* `Flight.Group.Spares.join`, `.start`, `.leave`, `.land` — the same for operations of callers of
  other keys.
-/

set_option autoImplicit false

namespace LayeredCache.Flight.Group

variable {τ : Type} {g g' g'' : Group τ} {i : Caller} {key : String}

/-! ## The other callers -/

/-- While the caller `i` acts, the others stay in their calls, of which some may become complete,
and none of them begins or ends a run. -/
structure Passes (i : Caller) (g g' : Group τ) : Prop where
  orderly : g'.Orderly
  others : ∀ w, w ≠ i → ∀ q k output, g'.Sits w q k output → ∃ output', g.Sits w q k output'
  complete : ∀ w, w ≠ i → ∀ q k v, g.Sits w q k (some v) → g'.Sits w q k (some v)
  runs : ∀ w, w ≠ i → (g'.Runs w ↔ g.Runs w)

namespace Passes

/-- Doing nothing passes. -/
lemma refl (h : g.Orderly) : Passes i g g where
  orderly := h
  others _ _ _ _ output hs := ⟨output, hs⟩
  complete _ _ _ _ _ hs := hs
  runs _ _ := Iff.rfl

/-- Two things that one caller does. -/
lemma trans (h : Passes i g g') (h' : Passes i g' g'') : Passes i g g'' where
  orderly := h'.orderly
  others w hw q k output hs := by
    obtain ⟨output', hs⟩ := h'.others w hw q k output hs
    exact h.others w hw q k output' hs
  complete w hw q k v hs := h'.complete w hw q k v (h.complete w hw q k v hs)
  runs w hw := (h'.runs w hw).trans (h.runs w hw)

/-- Joining. -/
lemma join (h : g.Orderly) (k : String) : Passes i g (g.join i k) := by
  cases hs : g.seat? i with
  | some p =>
    obtain ⟨c, hc⟩ := seated_of_seat hs
    rw [h.join_of_seated hc]
    exact refl h
  | none =>
    have hnone : ∀ p k' output, g.Sits i p k' output → k' = k := by
      rintro p k' output ⟨c, hc, -⟩
      exact absurd hc (h.not_seated hs)
    obtain ⟨hothers, -⟩ := h.sits_join hnone
    exact ⟨h.orderly_join i k,
      fun w hw q k' output hs' => ⟨output, (hothers w hw q k' output).mp hs'⟩,
      fun w hw q k' v hs' => (hothers w hw q k' (some v)).mpr hs', fun w _ => h.runs_join⟩

/-- Beginning to run. -/
lemma start (h : g.Orderly) {p : Nat} {c : Call τ} (hc : g.calls[p]? = some c)
    (hhead : c.line.head? = some i) (hout : c.output = none) : Passes i g (g.start i) where
  orderly := (h.start hc hhead).1
  others _ _ _ _ output hs := ⟨output, (h.sits_start hc hhead).mp hs⟩
  complete _ _ _ _ _ hs := (h.sits_start hc hhead).mpr hs
  runs w hw := by
    rw [h.runs_start hc hhead hout]
    simp [hw]

/-- Leaving. -/
lemma leave (h : g.Orderly) : Passes i g (g.leave i) where
  orderly := h.orderly_leave i
  others _ _ _ _ output hs := ⟨output, (h.sits_leave.mp hs).2⟩
  complete _ hw _ _ _ hs := h.sits_leave.mpr ⟨hw, hs⟩
  runs w hw := by
    rw [h.runs_leave]
    simp [hw]

/-- Landing, for a caller that runs. -/
lemma land (h : g.Orderly) (hruns : g.Runs i) (v : τ) : Passes i g (g.land i v) := by
  obtain ⟨p, c, hc⟩ := hruns
  have hi : g.Sits i p c.key none := ⟨c, hc.seated, rfl, hc.2.2.2⟩
  refine ⟨(h.land hc.seated hc.2.2.2 v).1, fun w _ q k output hs => ?_,
    fun w hw q k v' hs => ?_, fun w hw => ?_⟩
  · obtain ⟨-, hs⟩ := (h.sits_land hi v).mp hs
    by_cases hq : q = p
    · subst hq
      rw [if_pos rfl] at hs
      exact ⟨none, hs.1⟩
    · rw [if_neg hq] at hs
      exact ⟨output, hs⟩
  · -- the call that becomes complete was not complete before
    have hq : q ≠ p := by
      rintro rfl
      have hout := ((sits_here_iff hc.1).mp hs).2.2
      cases hout.symm.trans hc.2.2.2
    rw [h.sits_land hi v, if_neg hq]
    exact ⟨hw, hs⟩
  · rw [h.runs_land hc.1 hc.2.1 hc.2.2.2 v]
    simp [hw]

end Passes

/-! ## The callers of one key -/

/-- While the caller `i` acts, nobody's seat in a call of `key` changes. -/
structure Spares (key : String) (i : Caller) (g g' : Group τ) : Prop extends Passes i g g' where
  seats : ∀ w q output, g'.Sits w q key output ↔ g.Sits w q key output

namespace Spares

/-- Doing nothing spares a key. -/
lemma refl (h : g.Orderly) : Spares key i g g := ⟨.refl h, fun _ _ _ => Iff.rfl⟩

/-- Two things that spare a key. -/
lemma trans (h : Spares key i g g') (h' : Spares key i g' g'') : Spares key i g g'' where
  toPasses := h.toPasses.trans h'.toPasses
  seats w q output := (h'.seats w q output).trans (h.seats w q output)

/-- A caller that is inside no call of the key is not inside one afterwards. -/
lemma own (h : Spares key i g g') (hown : ∀ q k output, g.Sits i q k output → k ≠ key) :
    ∀ q k output, g'.Sits i q k output → k ≠ key := by
  rintro q k output hs rfl
  exact hown q k output ((h.seats i q output).mp hs) rfl

/-- Joining a call of another key. -/
lemma join (h : g.Orderly) {k : String} (hk : k ≠ key) : Spares key i g (g.join i k) := by
  refine ⟨.join h k, fun w q output' => ?_⟩
  cases hs : g.seat? i with
  | some p =>
    obtain ⟨c, hc⟩ := seated_of_seat hs
    rw [h.join_of_seated hc]
  | none =>
    have hnone : ∀ p k' output, g.Sits i p k' output → k' = k := by
      rintro p k' output ⟨c, hc, -⟩
      exact absurd hc (h.not_seated hs)
    obtain ⟨hothers, p, output, hi, -⟩ := h.sits_join hnone
    by_cases hw : w = i
    · subst hw
      constructor
      · intro hs'
        obtain ⟨-, hk', -⟩ := (h.orderly_join w k).sits_unique hi hs'
        exact absurd hk' hk
      · rintro ⟨c, hc, -⟩
        exact absurd hc (h.not_seated hs)
    · exact hothers w hw q key output'

/-- Beginning to run. -/
lemma start (h : g.Orderly) {p : Nat} {c : Call τ} (hc : g.calls[p]? = some c)
    (hhead : c.line.head? = some i) (hout : c.output = none) : Spares key i g (g.start i) :=
  ⟨.start h hc hhead hout, fun _ _ _ => h.sits_start hc hhead⟩

/-- Leaving, for a caller that is inside no call of the key. -/
lemma leave (h : g.Orderly) (hown : ∀ q k output, g.Sits i q k output → k ≠ key) :
    Spares key i g (g.leave i) := by
  refine ⟨.leave h, fun w q output => ?_⟩
  rw [h.sits_leave]
  constructor
  · exact fun hs => hs.2
  · intro hs
    refine ⟨?_, hs⟩
    rintro rfl
    exact hown q key output hs rfl

/-- Landing, for a caller that runs and is inside no call of the key. -/
lemma land (h : g.Orderly) (hown : ∀ q k output, g.Sits i q k output → k ≠ key) (hruns : g.Runs i)
    (v : τ) : Spares key i g (g.land i v) := by
  refine ⟨.land h hruns v, fun w q output => ?_⟩
  obtain ⟨p, c, hc⟩ := hruns
  have hi : g.Sits i p c.key none := ⟨c, hc.seated, rfl, hc.2.2.2⟩
  rw [h.sits_land hi v]
  by_cases hq : q = p
  · subst hq
    rw [if_pos rfl]
    constructor
    · rintro ⟨-, hs, -⟩
      have hkey := ((sits_here_iff hc.1).mp hs).2.1
      exact absurd hkey (hown q c.key none hi)
    · intro hs
      have hkey := ((sits_here_iff hc.1).mp hs).2.1
      exact absurd hkey (hown q c.key none hi)
  · rw [if_neg hq]
    constructor
    · exact fun hs => hs.2
    · intro hs
      refine ⟨?_, hs⟩
      rintro rfl
      exact hown q key output hs rfl

end Spares

end LayeredCache.Flight.Group
