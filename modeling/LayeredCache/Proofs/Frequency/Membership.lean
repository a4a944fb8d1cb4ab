import LayeredCache.Proofs.Frequency.Bits
import Mathlib.Algebra.Group.Nat.Defs
import Mathlib.Data.List.Induction
import Mathlib.Data.List.Nodup

/-!
# What a doorkeeper knows

A doorkeeper keeps bits and no hashes, and forgets all of them at once. After any insertions and
clearings its bits are exactly those of the hashes that were inserted since it was last cleared.
Membership is thereby decided from these hashes alone: they are all known, and another hash is known
exactly when each of its bits belongs to one of them.

The bits of a hash are three: they are found by going on from the hash by an odd step, and already
their remainders by four differ.

## Main definitions

* `Doorkeeper.Step`, `Doorkeeper.after` — the doorkeeper after a list of insertions and clearings.
* `Doorkeeper.Inserted` — a hash was inserted since the last clearing.

## Main results

* `Doorkeeper.nodup_positions` — the bits of a hash differ.
* `Doorkeeper.mem_bits_after` — the bits that are set.
* `Doorkeeper.knows_inserted` — what a doorkeeper knows, and where its bits lie.
-/

set_option autoImplicit false

namespace LayeredCache.Frequency

namespace Doorkeeper

/-! ## The bits of a hash -/

section Positions

variable {d : Doorkeeper}

/-- The step by which a hash goes on from one bit to the next. -/
def stride (hash : UInt64) : Nat := (spread hash firstSeed ||| 1).toNat

/-- The step is odd. -/
lemma stride_mod_two (hash : UInt64) : stride hash % 2 = 1 := by
  unfold stride
  rw [UInt64.toNat_or, UInt64.toNat_one, Nat.or_mod_two_eq_one]
  exact Or.inr rfl

/-- A divisor of the number of bits that divides the range of a word too sees neither of the two
wrap around. -/
lemma bit_mod {m : Nat} (hsize : m ∣ d.size) (hword : m ∣ 2 ^ 64) (hash round : UInt64) :
    d.bit hash round % m = (hash.toNat + round.toNat * stride hash) % m := by
  unfold bit stride
  rw [Nat.mod_mod_of_dvd _ hsize, UInt64.toNat_add, Nat.mod_mod_of_dvd _ hword,
    UInt64.toNat_mul, Nat.add_mod, Nat.mod_mod_of_dvd _ hword, ← Nat.add_mod]

/-- **The bits of a hash differ**, whatever the hash.

**Proof sketch.** By four the three positions leave the remainders of the hash, of the hash and an
odd number, and of the hash and twice an odd number. -/
lemma nodup_positions (hsize : 4 ∣ d.size) (hash : UInt64) : (d.positions hash).Nodup := by
  apply List.Nodup.of_map (· % 4)
  have hodd := stride_mod_two hash
  have hword : 4 ∣ 2 ^ 64 := by decide
  simp only [positions, List.map_cons, List.map_nil, bit_mod hsize hword, UInt64.toNat_ofNat]
  generalize stride hash = step at hodd ⊢
  generalize hash.toNat = start
  simp only [List.nodup_cons, List.mem_cons, List.not_mem_nil, or_false, not_false_eq_true,
    List.nodup_nil, and_true]
  omega

/-- When the number of bits is a power of two, a position can be cut out with a mask. -/
lemma bit_eq_mask {k : Nat} (hsize : d.size = 2 ^ k) (hash round : UInt64) :
    d.bit hash round =
      (hash + round * (spread hash firstSeed ||| 1)).toNat &&& (d.size - 1) := by
  unfold bit
  rw [hsize, Nat.and_two_pow_sub_one_eq_mod]

end Positions

/-! ## Runs -/

/-- One change of a doorkeeper. -/
inductive Step where
  /-- A hash is inserted. -/
  | insert (hash : UInt64)
  /-- All hashes are forgotten. -/
  | clear
deriving DecidableEq

/-- What a step makes of a doorkeeper. -/
def apply (d : Doorkeeper) : Step → Doorkeeper
  | .insert hash => (d.insert hash).2
  | .clear => d.clear

/-- A doorkeeper for `expected` hashes, after some steps. -/
def after (expected : Nat) (steps : List Step) : Doorkeeper := steps.foldl apply (new expected)

/-- A hash was inserted, and the doorkeeper not cleared since. -/
def Inserted (steps : List Step) (hash : UInt64) : Prop :=
  ∃ before later, steps = before ++ .insert hash :: later ∧ .clear ∉ later

/-- The last step of a run acts on the doorkeeper that the others left. -/
lemma after_concat (expected : Nat) (steps : List Step) (step : Step) :
    after expected (steps ++ [step]) = (after expected steps).apply step :=
  List.foldl_concat _ _ _ _

/-- Nothing was inserted at first. -/
lemma not_inserted_nil (hash : UInt64) : ¬ Inserted [] hash := by
  rintro ⟨before, later, hsteps, -⟩
  exact List.append_ne_nil_of_right_ne_nil before (List.cons_ne_nil _ later) hsteps.symm

/-- What is inserted stays so until the doorkeeper is cleared.

**Proof sketch.** The insertion of a hash is the last step, or the last step comes after it. -/
lemma inserted_concat (steps : List Step) (step : Step) (hash : UInt64) :
    Inserted (steps ++ [step]) hash ↔
      step = .insert hash ∨ step ≠ .clear ∧ Inserted steps hash := by
  constructor
  · rintro ⟨before, later, hsteps, hlater⟩
    rcases List.eq_nil_or_concat' later with rfl | ⟨earlier, last, rfl⟩
    · exact Or.inl (List.singleton_inj.mp (List.append_inj' hsteps rfl).2)
    · rw [← List.cons_append, ← List.append_assoc] at hsteps
      obtain ⟨hsteps, hlast⟩ := List.append_inj' hsteps rfl
      rw [List.mem_append, not_or, ← hlast, List.mem_singleton] at hlater
      exact Or.inr ⟨Ne.symm hlater.2, before, earlier, hsteps, hlater.1⟩
  · rintro (rfl | ⟨hstep, before, later, rfl, hlater⟩)
    · exact ⟨steps, [], rfl, List.not_mem_nil⟩
    · refine ⟨before, later ++ [step], by rw [List.append_assoc, List.cons_append], ?_⟩
      rw [List.mem_append, List.mem_singleton]
      rintro (hmem | rfl)
      · exact hlater hmem
      · exact hstep rfl

/-- The number of bits stays that of the new doorkeeper. -/
lemma size_after (expected : Nat) (steps : List Step) :
    (after expected steps).size = sizeFor expected := by
  induction steps using List.reverseRecOn with
  | nil => rfl
  | append_singleton steps step ih =>
    rw [after_concat]
    cases step with
    | insert hash => rw [apply, Filter.size_insert, ih]
    | clear => exact ih

/-- **The bits that are set** are those of the inserted hashes.

**Proof sketch.** Induction on the steps from the end. An insertion adds the bits of its hash to
those that were set, and after a clearing none are set and nothing counts as inserted. -/
lemma mem_bits_after (expected : Nat) (steps : List Step) (bit : Nat) :
    bit ∈ (after expected steps).bits ↔
      ∃ hash, Inserted steps hash ∧ bit ∈ (after expected steps).positions hash := by
  induction steps using List.reverseRecOn with
  | nil =>
    refine iff_of_false Std.HashSet.not_mem_empty ?_
    rintro ⟨hash, hinserted, -⟩
    exact not_inserted_nil hash hinserted
  | append_singleton steps step ih =>
    have hpositions : ∀ hash, (after expected (steps ++ [step])).positions hash =
        (after expected steps).positions hash :=
      positions_congr ((size_after _ _).trans (size_after _ _).symm)
    simp only [hpositions, inserted_concat]
    rw [after_concat]
    cases step with
    | insert inserted =>
      rw [apply, mem_insert, ih]
      constructor
      · rintro (⟨hash, hinserted, hbit⟩ | hbit)
        · exact ⟨hash, Or.inr ⟨Step.noConfusion, hinserted⟩, hbit⟩
        · exact ⟨inserted, Or.inl rfl, hbit⟩
      · rintro ⟨hash, heq | ⟨-, hinserted⟩, hbit⟩
        · obtain rfl := Step.insert.inj heq
          exact Or.inr hbit
        · exact Or.inl ⟨hash, hinserted, hbit⟩
    | clear =>
      refine iff_of_false Std.HashSet.not_mem_empty ?_
      rintro ⟨hash, heq | ⟨hclear, -⟩, -⟩
      · cases heq
      · exact hclear rfl

/-- **What a doorkeeper knows.** After any insertions and clearings the bits that are set are
exactly those of the hashes that were inserted since the last clearing. Hence these hashes are
known, and any hash is known exactly if each of its bits is one of theirs; and to insert a hash
tells whether it was known.

Every hash has three bits, which differ. They are below the number of bits, they lie in a word of
the table, and the mask of the number of bits finds them.

**Proof sketch.** `mem_bits_after`, with `contains_iff` for membership; the number of bits is a
power of two above the number of bits in a word. -/
theorem knows_inserted (expected : Nat) (steps : List Step) :
    let d := after expected steps
    (∀ bit, bit ∈ d.bits ↔ ∃ hash, Inserted steps hash ∧ bit ∈ d.positions hash) ∧
    ∀ hash,
      (Inserted steps hash → d.contains hash = true) ∧
      (d.contains hash = true ↔
        ∀ bit ∈ d.positions hash, ∃ other, Inserted steps other ∧ bit ∈ d.positions other) ∧
      (d.insert hash).1 = d.contains hash ∧
      (d.positions hash).length = 3 ∧ (d.positions hash).Nodup ∧
      ∀ round : UInt64,
        d.bit hash round < d.size ∧ d.bit hash round / wordBits < d.size / wordBits ∧
          d.bit hash round =
            (hash + round * (spread hash firstSeed ||| 1)).toNat &&& (d.size - 1) := by
  intro d
  have hsize : d.size = sizeFor expected := size_after expected steps
  have hbits : ∀ bit, bit ∈ d.bits ↔ ∃ hash, Inserted steps hash ∧ bit ∈ d.positions hash :=
    mem_bits_after expected steps
  have hwords : wordBits ∣ d.size := hsize ▸ words_dvd_sizeFor expected
  refine ⟨hbits, fun hash => ⟨fun hinserted => ?_, ?_, insert_answer d hash, rfl, ?_,
    fun round => ?_⟩⟩
  · rw [contains_iff]
    exact fun bit hbit => (hbits bit).mpr ⟨hash, hinserted, hbit⟩
  · rw [contains_iff]
    simp only [hbits]
  · exact nodup_positions (Nat.dvd_trans (by decide) hwords) hash
  · have hlt : d.bit hash round < d.size := Nat.mod_lt _ (hsize ▸ powerFor_pos _)
    exact ⟨hlt, Nat.div_lt_div_of_lt_of_dvd hwords hlt, bit_eq_mask hsize hash round⟩

/-- A hash that was inserted after the doorkeeper was cleared is known. -/
theorem knows_inserted_cleared :
    (after 0 [.insert 5, .clear, .insert 7]).contains 7 = true :=
  ((knows_inserted 0 [.insert 5, .clear, .insert 7]).2 7).1
    ⟨[.insert 5, .clear], [], rfl, by decide⟩

end Doorkeeper

end LayeredCache.Frequency
