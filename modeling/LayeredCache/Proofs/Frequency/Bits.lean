import LayeredCache.Proofs.Frequency.Places

/-!
# The bits of a doorkeeper

An insertion tests and sets the three bits of a hash in one pass. It adds these bits and no others,
and it answers whether all of them had been there: a bit that an earlier round set cannot turn the
answer back, since that round has already refused.

## Main results

* `Doorkeeper.mem_insert` — the bits after an insertion.
* `Doorkeeper.insert_answer` — the answer of an insertion.
* `Doorkeeper.contains_insert_self`, `Doorkeeper.contains_insert` — what is known stays known.
-/

set_option autoImplicit false

namespace LayeredCache.Frequency.Doorkeeper

/-- Nothing changes when the bit was set. -/
lemma setBit_of_mem {known : Bool × Doorkeeper} {set : Nat} (h : set ∈ known.2.bits) :
    setBit known set = known := if_pos h

/-- A bit that was not set is added, and refuses. -/
lemma setBit_of_notMem {known : Bool × Doorkeeper} {set : Nat} (h : set ∉ known.2.bits) :
    setBit known set = (false, { known.2 with bits := known.2.bits.insert set }) := if_neg h

/-- Setting a bit adds it. -/
lemma mem_setBit (known : Bool × Doorkeeper) (set bit : Nat) :
    bit ∈ (setBit known set).2.bits ↔ bit ∈ known.2.bits ∨ bit = set := by
  by_cases hset : set ∈ known.2.bits
  · rw [setBit_of_mem hset]
    constructor
    · exact Or.inl
    · rintro (hbit | rfl)
      · exact hbit
      · exact hset
  · rw [setBit_of_notMem hset, Std.HashSet.mem_insert, beq_iff_eq]
    constructor
    · rintro (rfl | hbit)
      · exact Or.inr rfl
      · exact Or.inl hbit
    · rintro (hbit | rfl)
      · exact Or.inr hbit
      · exact Or.inl rfl

/-- Setting bits one by one adds them all. -/
lemma mem_foldl_setBit (positions : List Nat) (bit : Nat) :
    ∀ known : Bool × Doorkeeper,
      bit ∈ (positions.foldl setBit known).2.bits ↔ bit ∈ known.2.bits ∨ bit ∈ positions := by
  induction positions with
  | nil =>
    intro known
    simp
  | cons first rest ih =>
    intro known
    rw [List.foldl_cons, ih, mem_setBit, List.mem_cons, or_assoc]

/-- A refusal stands, whatever the later rounds find. -/
lemma answer_refused (positions : List Nat) :
    ∀ d : Doorkeeper, (positions.foldl setBit (false, d)).1 = false := by
  induction positions with
  | nil =>
    intro d
    rfl
  | cons first rest ih =>
    intro d
    rw [List.foldl_cons]
    by_cases hfirst : first ∈ d.bits
    · rw [setBit_of_mem hfirst]
      exact ih d
    · rw [setBit_of_notMem hfirst]
      exact ih _

/-- The answer is true exactly if every bit had been set.

**Proof sketch.** Induction on the positions. When the first bit is set, nothing changes. When it
is not, the answer is a refusal, and this is what the rest leaves. -/
lemma answer_foldl_setBit (positions : List Nat) :
    ∀ d : Doorkeeper,
      (positions.foldl setBit (true, d)).1 = positions.all d.bits.contains := by
  induction positions with
  | nil =>
    intro d
    rfl
  | cons first rest ih =>
    intro d
    rw [List.foldl_cons, List.all_cons]
    by_cases hfirst : first ∈ d.bits
    · have hcontains : d.bits.contains first = true := hfirst
      rw [setBit_of_mem hfirst, ih d, hcontains, Bool.true_and]
    · have hcontains : d.bits.contains first = false := (Bool.not_eq_true _).mp hfirst
      rw [setBit_of_notMem hfirst, answer_refused, hcontains, Bool.false_and]

/-- **An insertion adds the bits of its hash** and no others. -/
lemma mem_insert (d : Doorkeeper) (hash : UInt64) (bit : Nat) :
    bit ∈ (d.insert hash).2.bits ↔ bit ∈ d.bits ∨ bit ∈ d.positions hash :=
  mem_foldl_setBit _ _ _

/-- **An insertion answers what membership was** before it. -/
lemma insert_answer (d : Doorkeeper) (hash : UInt64) : (d.insert hash).1 = d.contains hash :=
  answer_foldl_setBit _ d

/-- A hash is known exactly if each of its bits is set. -/
lemma contains_iff (d : Doorkeeper) (hash : UInt64) :
    d.contains hash = true ↔ ∀ bit ∈ d.positions hash, bit ∈ d.bits := by
  unfold contains
  rw [List.all_eq_true]
  rfl

/-- The positions of a hash depend on the number of bits only. -/
lemma positions_congr {d e : Doorkeeper} (h : d.size = e.size) (hash : UInt64) :
    d.positions hash = e.positions hash := by
  simp only [positions, bit, h]

/-- A hash is known once it was inserted. -/
lemma contains_insert_self (d : Doorkeeper) (hash : UInt64) :
    (d.insert hash).2.contains hash = true := by
  rw [contains_iff, positions_congr (Filter.size_insert d hash)]
  intro bit hbit
  exact (mem_insert d hash bit).mpr (Or.inr hbit)

/-- A hash that is known stays known. -/
lemma contains_insert {d : Doorkeeper} {hash : UInt64} (h : d.contains hash = true)
    (other : UInt64) : (d.insert other).2.contains hash = true := by
  rw [contains_iff] at h ⊢
  rw [positions_congr (Filter.size_insert d other)]
  intro bit hbit
  exact (mem_insert d other bit).mpr (Or.inl (h bit hbit))

end LayeredCache.Frequency.Doorkeeper
