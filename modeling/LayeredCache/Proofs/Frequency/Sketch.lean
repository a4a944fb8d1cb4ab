import LayeredCache.Proofs.Frequency.Places
import Mathlib.Algebra.Group.Nat.Defs
import Mathlib.Data.List.Induction
import Mathlib.Data.List.Nodup

/-!
# What a sketch counts

Hashes share the counters of a sketch, so a counter counts all hashes that fall on it. Each counter
is an exact saturating counter of these hashes: this is the invariant that carries the file. The
estimate of a hash is the least of its four counters, so that it is never below the hash's own
count, and it is this count when one of the four counters is shared with no other hash.

## Main definitions

* `CountMin.Step`, `CountMin.after` — the sketch after a list of increments and halvings.
* `CountMin.tally` — one saturating counter of the hashes that satisfy a test.
* `CountMin.ownCount` — the counter that a hash would have for itself.

## Main results

* `CountMin.count_increment`, `CountMin.count_halve` — what a step does to every counter.
* `CountMin.count_after` — every counter of a sketch is the tally of the hashes that fall on it.
* `CountMin.estimate_over` — the estimate is at least the own count, and equal to it without
  collisions; the counters of a hash lie in their rows.

## Implementation notes

Saturation and halving do not commute, so that a counter is not a function of how often its hashes
were counted. It is compared with another counter that took the same steps.
-/

set_option autoImplicit false

namespace LayeredCache.Frequency

namespace CountMin

/-! ## Places -/

section Places

variable {s : CountMin}

/-- A place lies in its own row. -/
lemma place_div (hwidth : 0 < s.width) (hash : UInt64) (row : Nat) (seed : UInt64) :
    s.place hash row seed / s.width = row := by
  have hcolumn := Nat.mod_lt (spread hash seed).toNat hwidth
  unfold place
  rw [Nat.mul_comm, Nat.mul_add_div hwidth, Nat.div_eq_of_lt hcolumn, Nat.add_zero]

/-- The places of a hash lie in four rows, hence are four. -/
lemma nodup_places (hwidth : 0 < s.width) (hash : UInt64) : (s.places hash).Nodup := by
  apply List.Nodup.of_map (· / s.width)
  have hrows : (s.places hash).map (· / s.width) = rows.map Prod.fst := by
    unfold places
    rw [List.map_map]
    apply List.map_congr_left
    intro row _
    exact place_div hwidth hash row.1 row.2
  rw [hrows]
  decide

/-- The place of a hash in a row is the only one of its places in this row. -/
lemma place_mem_places (hwidth : 0 < s.width) {row : Nat × UInt64} (hrow : row ∈ rows)
    (hash other : UInt64) :
    s.place hash row.1 row.2 ∈ s.places other ↔
      s.place other row.1 row.2 = s.place hash row.1 row.2 := by
  constructor
  · intro hmem
    obtain ⟨row', hrow', hplace⟩ := List.mem_map.mp hmem
    have hindex : row'.1 = row.1 := by
      rw [← place_div hwidth other row'.1 row'.2, ← place_div hwidth hash row.1 row.2]
      exact congrArg (· / s.width) hplace
    -- the seeds are named by the rows
    have hsame : row' = row := by
      have hinj : ∀ r ∈ rows, ∀ r' ∈ rows, r.1 = r'.1 → r = r' := by decide
      exact hinj row' hrow' row hrow hindex
    rw [← hsame] at hplace ⊢
    exact hplace
  · intro hplace
    rw [← hplace]
    exact List.mem_map.mpr ⟨row, hrow, rfl⟩

/-- When the width is a power of two, the column of a hash can be cut out with a mask. -/
lemma place_eq_mask {k : Nat} (hwidth : s.width = 2 ^ k) (hash : UInt64) (row : Nat)
    (seed : UInt64) :
    s.place hash row seed = row * s.width + ((spread hash seed).toNat &&& (s.width - 1)) := by
  unfold place
  rw [hwidth, Nat.and_two_pow_sub_one_eq_mod]

end Places

/-! ## One step -/

/-- No counter is above its greatest count. -/
def Limited (s : CountMin) : Prop := ∀ place, s.count place ≤ countLimit

/-- A new sketch has no counts. -/
lemma count_new (wanted place : Nat) : (new wanted).count place = 0 :=
  Std.HashMap.getD_empty

/-- Raising counts once more on one counter, up to the greatest count. -/
lemma count_raise {s : CountMin} (h : s.Limited) (raised place : Nat) :
    (s.raise raised).count place =
      if place = raised then min countLimit (s.count place + 1) else s.count place := by
  have hlimit := h raised
  by_cases hfull : s.count raised < countLimit
  · have hraise : s.raise raised =
        { s with counters := s.counters.insert raised (s.count raised + 1) } := if_pos hfull
    rw [hraise]
    show (s.counters.insert raised _).getD place 0 = _
    rw [Std.HashMap.getD_insert]
    by_cases hplace : place = raised
    · subst hplace
      simp only [BEq.rfl, if_true]
      omega
    · have hne : (raised == place) = false := beq_false_of_ne (Ne.symm hplace)
      simp only [hne, if_neg hplace, Bool.false_eq_true, if_false]
      rfl
  · have hraise : s.raise raised = s := if_neg hfull
    rw [hraise]
    by_cases hplace : place = raised
    · subst hplace
      rw [if_pos rfl]
      omega
    · rw [if_neg hplace]

/-- Raising stops at the greatest count. -/
lemma Limited.raise {s : CountMin} (h : s.Limited) (place : Nat) : (s.raise place).Limited := by
  intro other
  have hother := h other
  rw [count_raise h]
  split
  · exact Nat.min_le_left _ _
  · exact hother

/-- Raising along a list without repetition raises each of its counters once.

**Proof sketch.** Induction on the list. The first place is not in the rest, so what the rest
raises is as it was before. -/
lemma foldl_raise {places : List Nat} (hplaces : places.Nodup) :
    ∀ {s : CountMin}, s.Limited →
      (places.foldl CountMin.raise s).Limited ∧ ∀ place,
        (places.foldl CountMin.raise s).count place =
          if place ∈ places then min countLimit (s.count place + 1) else s.count place := by
  induction places with
  | nil =>
    intro s h
    exact ⟨h, fun place => (if_neg List.not_mem_nil).symm⟩
  | cons first rest ih =>
    intro s h
    obtain ⟨hfirst, hrest⟩ := List.nodup_cons.mp hplaces
    obtain ⟨hlimited, hcount⟩ := ih hrest (h.raise first)
    refine ⟨hlimited, fun place => ?_⟩
    rw [List.foldl_cons, hcount place, count_raise h]
    by_cases hplace : place = first
    · subst hplace
      simp [hfirst]
    · simp [hplace]

/-- Counting a hash raises exactly the counters on which it falls. -/
lemma count_increment {s : CountMin} (h : s.Limited) (hwidth : 0 < s.width) (hash : UInt64)
    (place : Nat) :
    (s.increment hash).count place =
      if place ∈ s.places hash then min countLimit (s.count place + 1) else s.count place :=
  (foldl_raise (nodup_places hwidth hash) h).2 place

/-- Counting stops at the greatest count. -/
lemma Limited.increment {s : CountMin} (h : s.Limited) (hwidth : 0 < s.width) (hash : UInt64) :
    (s.increment hash).Limited :=
  (foldl_raise (nodup_places hwidth hash) h).1

/-- Halving halves every counter. -/
lemma count_halve (s : CountMin) (place : Nat) : s.halve.count place = s.count place / 2 := by
  show (s.counters.map fun _ c => c / 2).getD place 0 = s.counters.getD place 0 / 2
  rw [Std.HashMap.getD_map, Std.HashMap.getD_eq_getD_getElem?]
  cases s.counters[place]? with
  | none => rfl
  | some c => rfl

/-- Halving raises no counter. -/
lemma Limited.halve {s : CountMin} (h : s.Limited) : s.halve.Limited := by
  intro place
  rw [count_halve]
  exact Nat.le_trans (Nat.div_le_self _ 2) (h place)

/-- A place depends on the width only. -/
lemma place_congr {s t : CountMin} (h : s.width = t.width) (hash : UInt64) (row : Nat)
    (seed : UInt64) : s.place hash row seed = t.place hash row seed := by
  simp only [place, h]

/-- The places of a hash depend on the width only. -/
lemma places_congr {s t : CountMin} (h : s.width = t.width) (hash : UInt64) :
    s.places hash = t.places hash := by
  simp only [places, place_congr h]

/-! ## The estimate -/

/-- The estimate is the least of the counters of a hash: one of them, and none is lower. -/
lemma estimate_least {s : CountMin} (h : s.Limited) (hash : UInt64) :
    (∃ place ∈ s.places hash, s.estimate hash = s.count place) ∧
      ∀ place ∈ s.places hash, s.estimate hash ≤ s.count place := by
  have hne : (s.places hash).map s.count ≠ [] := by simp [places, rows]
  obtain ⟨least, hleast⟩ := Option.ne_none_iff_exists'.mp (mt List.min?_eq_none_iff.mp hne)
  obtain ⟨hmem, hle⟩ := List.min?_eq_some_iff.mp hleast
  obtain ⟨place, hplace, hcount⟩ := List.mem_map.mp hmem
  -- the fold starts at the greatest count, which no counter exceeds
  have hestimate : s.estimate hash = least := by
    unfold estimate
    rw [List.foldl_min, hleast, Option.getD_some, ← hcount]
    exact Nat.min_eq_right (h place)
  rw [hestimate]
  exact ⟨⟨place, hplace, hcount.symm⟩, fun p hp => hle _ (List.mem_map_of_mem hp)⟩

/-! ## Runs -/

/-- One change of a sketch. -/
inductive Step where
  /-- A hash is counted. -/
  | increment (hash : UInt64)
  /-- All counters are halved. -/
  | halve
deriving DecidableEq

/-- What a step makes of a sketch. -/
def apply (s : CountMin) : Step → CountMin
  | .increment hash => s.increment hash
  | .halve => s.halve

/-- The sketch that asks for `wanted` counters in a row, after some steps. -/
def after (wanted : Nat) (steps : List Step) : CountMin := steps.foldl apply (new wanted)

/-- What a step makes of a saturating counter of the hashes that satisfy `counted`. -/
def tallyStep (counted : UInt64 → Prop) [DecidablePred counted] (c : Nat) : Step → Nat
  | .increment hash => if counted hash then min countLimit (c + 1) else c
  | .halve => c / 2

/-- A saturating counter of the hashes that satisfy `counted`, after some steps. -/
def tally (counted : UInt64 → Prop) [DecidablePred counted] (steps : List Step) : Nat :=
  steps.foldl (tallyStep counted) 0

/-- The counter that a hash would have if it shared it with no other. -/
def ownCount (hash : UInt64) (steps : List Step) : Nat := tally (· = hash) steps

/-- The last step of a run acts on the sketch that the others left. -/
lemma after_concat (wanted : Nat) (steps : List Step) (step : Step) :
    after wanted (steps ++ [step]) = (after wanted steps).apply step :=
  List.foldl_concat _ _ _ _

/-- The last step of a run acts on the counter that the others left. -/
lemma tally_concat (counted : UInt64 → Prop) [DecidablePred counted] (steps : List Step)
    (step : Step) :
    tally counted (steps ++ [step]) = tallyStep counted (tally counted steps) step :=
  List.foldl_concat _ _ _ _

/-- What carries a run: the width is the one of the new sketch and no counter is too great. -/
lemma after_limited (wanted : Nat) (steps : List Step) :
    (after wanted steps).width = (new wanted).width ∧ (after wanted steps).Limited := by
  induction steps using List.reverseRecOn with
  | nil =>
    refine ⟨rfl, fun place => ?_⟩
    show (new wanted).count place ≤ countLimit
    rw [count_new]
    exact Nat.zero_le _
  | append_singleton steps step ih =>
    obtain ⟨hwidth, hlimited⟩ := ih
    have hpos : 0 < (after wanted steps).width := hwidth ▸ powerFor_pos _
    rw [after_concat]
    cases step with
    | increment hash =>
      exact ⟨(Filter.width_increment _ hash).trans hwidth, hlimited.increment hpos hash⟩
    | halve => exact ⟨hwidth, hlimited.halve⟩

/-- Every row has a counter. -/
lemma width_after_pos (wanted : Nat) (steps : List Step) : 0 < (after wanted steps).width :=
  (after_limited wanted steps).1 ▸ powerFor_pos _

/-- **Every counter is exact for the hashes that fall on it.**

**Proof sketch.** Induction on the steps from the end. An increment raises the counter exactly if
it is one of the hash's places, and so does the tally. -/
lemma count_after (wanted : Nat) (steps : List Step) (place : Nat) :
    (after wanted steps).count place =
      tally (fun hash => place ∈ (new wanted).places hash) steps := by
  induction steps using List.reverseRecOn with
  | nil => exact count_new wanted place
  | append_singleton steps step ih =>
    obtain ⟨hwidth, hlimited⟩ := after_limited wanted steps
    rw [after_concat, tally_concat, ← ih]
    cases step with
    | increment hash =>
      show ((after wanted steps).increment hash).count place = _
      rw [count_increment hlimited (width_after_pos wanted steps), places_congr hwidth]
      rfl
    | halve => exact count_halve _ place

/-- A saturating counter stops at the greatest count. -/
lemma tally_le (counted : UInt64 → Prop) [DecidablePred counted] (steps : List Step) :
    tally counted steps ≤ countLimit := by
  induction steps using List.reverseRecOn with
  | nil => exact Nat.zero_le _
  | append_singleton steps step ih =>
    rw [tally_concat]
    cases step with
    | increment hash =>
      simp only [tallyStep]
      split
      · exact Nat.min_le_left _ _
      · exact ih
    | halve => exact Nat.le_trans (Nat.div_le_self _ 2) ih

/-- A counter of more hashes is at least as great. -/
lemma tally_mono {P Q : UInt64 → Prop} [DecidablePred P] [DecidablePred Q]
    (h : ∀ hash, P hash → Q hash) (steps : List Step) : tally P steps ≤ tally Q steps := by
  induction steps using List.reverseRecOn with
  | nil => exact Nat.le_refl _
  | append_singleton steps step ih =>
    have hlimit := tally_le P steps
    rw [tally_concat, tally_concat]
    cases step with
    | increment hash =>
      simp only [tallyStep]
      by_cases hP : P hash
      · rw [if_pos hP, if_pos (h hash hP)]
        omega
      · rw [if_neg hP]
        split
        · omega
        · exact ih
    | halve => exact Nat.div_le_div_right ih

/-- A counter depends on the hashes that were counted only. -/
lemma tally_congr {P Q : UInt64 → Prop} [DecidablePred P] [DecidablePred Q] {steps : List Step}
    (h : ∀ hash, .increment hash ∈ steps → (P hash ↔ Q hash)) : tally P steps = tally Q steps := by
  apply List.foldl_ext
  intro c step hstep
  cases step with
  | increment hash => simp only [tallyStep, h hash hstep]
  | halve => rfl

/-- No counter of a hash is below the hash's own count: all of them count it. -/
lemma ownCount_le_count {wanted : Nat} {steps : List Step} {hash : UInt64} {place : Nat}
    (h : place ∈ (after wanted steps).places hash) :
    ownCount hash steps ≤ (after wanted steps).count place := by
  rw [places_congr (after_limited wanted steps).1] at h
  rw [count_after]
  apply tally_mono
  rintro other rfl
  exact h

/-- A counter on which no other counted hash falls has the hash's own count. -/
lemma count_eq_ownCount {wanted : Nat} {steps : List Step} {hash : UInt64} {row : Nat × UInt64}
    (hrow : row ∈ rows)
    (halone : ∀ other, .increment other ∈ steps → other ≠ hash →
      (after wanted steps).place other row.1 row.2 ≠ (after wanted steps).place hash row.1 row.2) :
    (after wanted steps).count ((after wanted steps).place hash row.1 row.2) =
      ownCount hash steps := by
  rw [count_after]
  apply tally_congr
  intro other hother
  rw [← places_congr (after_limited wanted steps).1,
    place_mem_places (width_after_pos wanted steps) hrow]
  constructor
  · intro hplace
    by_contra hne
    exact halone other hother hne hplace
  · rintro rfl
    rfl

/-- **A sketch over-approximates, and is exact without collisions.** After any steps the estimate
of a hash is at least the hash's own count and at most the greatest count. It is the own count when
in some row no other counted hash falls on the hash's counter. Whatever the hash, its counter in a
row lies in this row of the table, and the mask of the width finds it.

**Proof sketch.** The estimate is one of the hash's counters and none of them is lower. All four
count the hash, which gives the bound from below. A counter that counts nothing else has the own
count, which is then the bound from above too. -/
theorem estimate_over (wanted : Nat) (steps : List Step) (hash : UInt64) :
    let s := after wanted steps
    ownCount hash steps ≤ s.estimate hash ∧ s.estimate hash ≤ countLimit ∧
      ((∃ row ∈ rows, ∀ other, .increment other ∈ steps → other ≠ hash →
          s.place other row.1 row.2 ≠ s.place hash row.1 row.2) →
        s.estimate hash = ownCount hash steps) ∧
      ∀ row ∈ rows,
        row.1 * s.width ≤ s.place hash row.1 row.2 ∧
          s.place hash row.1 row.2 < (row.1 + 1) * s.width ∧
          s.place hash row.1 row.2 < rows.length * s.width ∧
          s.place hash row.1 row.2 =
            row.1 * s.width + ((spread hash row.2).toNat &&& (s.width - 1)) := by
  intro s
  obtain ⟨hwidth, hlimited⟩ := after_limited wanted steps
  have hpos : 0 < s.width := width_after_pos wanted steps
  obtain ⟨⟨least, hleast, hestimate⟩, hbelow⟩ := estimate_least hlimited hash
  have hover : ownCount hash steps ≤ s.estimate hash := by
    rw [hestimate]
    exact ownCount_le_count hleast
  refine ⟨hover, ?_, ?_, ?_⟩
  · rw [hestimate]
    exact hlimited least
  · rintro ⟨row, hrow, halone⟩
    refine Nat.le_antisymm ?_ hover
    rw [← count_eq_ownCount hrow halone]
    exact hbelow _ (List.mem_map.mpr ⟨row, hrow, rfl⟩)
  · intro row hrow
    have hdiv := place_div hpos hash row.1 row.2
    have hindex : row.1 < rows.length := by
      have hall : ∀ r ∈ rows, r.1 < rows.length := by decide
      exact hall row hrow
    have hlow : row.1 * s.width ≤ s.place hash row.1 row.2 := Nat.le_add_right _ _
    have hhigh : s.place hash row.1 row.2 < (row.1 + 1) * s.width := by
      apply (Nat.div_lt_iff_lt_mul hpos).mp
      rw [hdiv]
      exact Nat.lt_succ_self _
    exact ⟨hlow, hhigh, Nat.lt_of_lt_of_le hhigh (Nat.mul_le_mul_right _ hindex),
      place_eq_mask hwidth hash row.1 row.2⟩

/-- Two hashes that fall on different counters of a row: the estimate of one is its own count. -/
theorem estimate_over_pair :
    (after 16 [.increment 7, .increment 7, .increment 9, .halve, .increment 7]).estimate 7 = 2 :=
  (estimate_over 16 [.increment 7, .increment 7, .increment 9, .halve, .increment 7] 7).2.2.1
    ⟨(0, firstSeed), by decide, by
      intro other hother hne
      have hnine : other = 9 := by simpa [hne] using hother
      subst hnine
      rw [place_congr (after_limited 16 _).1, place_congr (after_limited 16 _).1]
      decide +kernel⟩

end CountMin

end LayeredCache.Frequency
