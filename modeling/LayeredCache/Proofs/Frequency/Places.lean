import LayeredCache.Frequency.Filter
import Mathlib.Tactic.Lemma

/-!
# Places in the tables of a filter

The rows of a sketch are one table of counters, and the bits of a doorkeeper are kept in words of
64 bits. Whatever hash is recorded, the counters and the words that it falls on are in these
tables.

## Main definitions

* `Filter.InRange` — what a hash falls on is in the tables.
* `Filter.Sized` — the rows are not empty, and the bits fill whole words.

## Main results

* `Filter.sized_new`, `Filter.Sized.record` — every filter is sized.
* `Filter.Sized.inRange` — a sized filter has a place for every hash.
-/

set_option autoImplicit false

namespace LayeredCache.Frequency

/-- The number of bits in a word of the doorkeeper's table. -/
def wordBits : Nat := 64

/-- A power of two above a power of two is a multiple of it. -/
lemma pow_dvd_powerFor {n k : Nat} (h : Nat.pow 2 k < n) : Nat.pow 2 k ∣ powerFor n := by
  refine Nat.pow_dvd_pow 2 (Nat.le_succ_of_le ?_)
  have hle : Nat.pow 2 k ≤ n - 1 := Nat.le_sub_one_of_lt h
  have hpos : 0 < Nat.pow 2 k := Nat.pow_pos (by decide)
  exact (Nat.le_log2 (Nat.ne_of_gt (Nat.lt_of_lt_of_le hpos hle))).mpr hle

/-- A power of two is positive. -/
lemma powerFor_pos (n : Nat) : 0 < powerFor n := Nat.pow_pos (by decide)

/-- The bits of a doorkeeper fill whole words. -/
lemma words_dvd_sizeFor (expected : Nat) : wordBits ∣ Doorkeeper.sizeFor expected := by
  refine pow_dvd_powerFor (k := 6) ?_
  show 64 < _
  omega

namespace Filter

/-- The counters and the words on which a hash falls are in their tables. -/
def InRange (f : Filter) (hash : UInt64) : Prop :=
  (∀ place ∈ f.sketch.places hash, place < rows.length * f.sketch.width) ∧
    ∀ bit ∈ f.doorkeeper.positions hash, bit / wordBits < f.doorkeeper.size / wordBits

/-- Whether the places of a hash are in the tables can be decided. -/
instance (f : Filter) (hash : UInt64) : Decidable (f.InRange hash) :=
  inferInstanceAs (Decidable (_ ∧ _))

/-- The rows of the sketch are not empty, and the doorkeeper has whole words and at least one. -/
structure Sized (f : Filter) : Prop where
  width : 0 < f.sketch.width
  bits : 0 < f.doorkeeper.size
  words : wordBits ∣ f.doorkeeper.size

/-- A new filter is sized. -/
lemma sized_new (width samples : Nat) : (Filter.new width samples).Sized where
  width := powerFor_pos _
  bits := powerFor_pos _
  words := words_dvd_sizeFor _

/-- Setting a bit leaves the number of bits. -/
lemma size_setBit (known : Bool × Doorkeeper) (position : Nat) :
    (Doorkeeper.setBit known position).2.size = known.2.size := by
  unfold Doorkeeper.setBit
  split <;> rfl

/-- Raising a counter leaves the width. -/
lemma width_raise (s : CountMin) (place : Nat) : (s.raise place).width = s.width := by
  unfold CountMin.raise
  split <;> rfl

/-- Counting a hash leaves the width. -/
lemma width_increment (s : CountMin) (hash : UInt64) : (s.increment hash).width = s.width := by
  have hfold : ∀ (places : List Nat) (t : CountMin),
      (places.foldl CountMin.raise t).width = t.width := by
    intro places
    induction places with
    | nil => exact fun _ => rfl
    | cons place rest ih => exact fun t => (ih _).trans (width_raise t place)
  exact hfold _ s

/-- Setting the bits of a hash leaves the number of bits. -/
lemma size_insert (d : Doorkeeper) (hash : UInt64) : (d.insert hash).2.size = d.size := by
  simp only [Doorkeeper.insert, Doorkeeper.positions, List.foldl_cons, List.foldl_nil, size_setBit]

/-- Counting a hash leaves the sizes of the tables. -/
lemma sizes_count (f : Filter) (hash : UInt64) :
    (f.count hash).sketch.width = f.sketch.width ∧
      (f.count hash).doorkeeper.size = f.doorkeeper.size := by
  have hsize := size_insert f.doorkeeper hash
  unfold count
  generalize f.doorkeeper.insert hash = answer at hsize
  obtain ⟨known, door⟩ := answer
  cases known with
  | true =>
    dsimp only
    exact ⟨width_increment f.sketch hash, hsize⟩
  | false =>
    dsimp only
    exact ⟨rfl, hsize⟩

/-- Recording a hash leaves the sizes of the tables. -/
lemma sizes_record (f : Filter) (hash : UInt64) :
    (f.record hash).sketch.width = f.sketch.width ∧
      (f.record hash).doorkeeper.size = f.doorkeeper.size := by
  have hcount := sizes_count f hash
  unfold record
  generalize f.count hash = counted at hcount
  dsimp only
  split
  · exact hcount
  · exact hcount

/-- Recording keeps a filter sized. -/
lemma Sized.record {f : Filter} (h : f.Sized) (hash : UInt64) : (f.record hash).Sized := by
  obtain ⟨hwidth, hsize⟩ := sizes_record f hash
  exact ⟨by rw [hwidth]; exact h.width, by rw [hsize]; exact h.bits, by rw [hsize]; exact h.words⟩

/-- **A sized filter has a place for every hash.**

**Proof sketch.** A counter is named by its row and by a remainder below the width; a bit is a
remainder below the number of bits, which is a number of whole words. -/
lemma Sized.inRange {f : Filter} (h : f.Sized) (hash : UInt64) : f.InRange hash := by
  constructor
  · intro place hplace
    simp only [CountMin.places, List.mem_map] at hplace
    obtain ⟨⟨row, seed⟩, hrow, rfl⟩ := hplace
    have hlt : row < rows.length := by
      simp only [rows, List.mem_cons, Prod.mk.injEq, List.not_mem_nil, or_false] at hrow
      rcases hrow with ⟨rfl, -⟩ | ⟨rfl, -⟩ | ⟨rfl, -⟩ | ⟨rfl, -⟩ <;> decide
    have hcolumn := Nat.mod_lt (spread hash seed).toNat h.width
    calc f.sketch.place hash row seed < row * f.sketch.width + f.sketch.width :=
          Nat.add_lt_add_left hcolumn _
      _ = (row + 1) * f.sketch.width := (Nat.succ_mul _ _).symm
      _ ≤ rows.length * f.sketch.width := Nat.mul_le_mul_right _ hlt
  · intro bit hbit
    have hlt : bit < f.doorkeeper.size := by
      simp only [Doorkeeper.positions, List.mem_cons, List.not_mem_nil, or_false] at hbit
      rcases hbit with rfl | rfl | rfl <;> exact Nat.mod_lt _ h.bits
    exact Nat.div_lt_div_of_lt_of_dvd h.words hlt

end Filter

end LayeredCache.Frequency
