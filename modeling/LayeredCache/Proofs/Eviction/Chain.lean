import Mathlib.Data.List.Nodup
import LayeredCache.Eviction.Slab

/-!
# Chains of nodes

The nodes of a segment are linked in both directions. A chain says this of a list of slots: each
slot's link names the segment, the slot before it and the slot after it. The two ends are
parameters, so that a chain can be cut at any of its nodes and what stands on either side of the
cut is again a chain.

## Main definitions

* `Chain` — the slots of a list are linked in its order, between two given neighbours.

## Main results

* `chain_append` — a chain of two lists is two chains that meet.
* `Chain.congr` — a chain depends on the links of its own slots only.
* `Chain.reprev`, `Chain.renext` — a chain gets another neighbour at either end.
* `Chain.cut` — what is left of a chain when one of its nodes is taken out.
-/

set_option autoImplicit false

namespace LayeredCache.Eviction

/-- The slots `xs` are linked in this order inside the segment `g`, after `p` and before `n`. -/
def Chain (links : Nat → Link) (g : Segment) : Option Nat → List Nat → Option Nat → Prop
  | _, [], _ => True
  | p, i :: xs, n =>
    (links i).segment = g ∧ (links i).prev = p ∧ (links i).next = xs.head?.or n ∧
      Chain links g (some i) xs n

section

variable {links links' : Nat → Link} {g : Segment} {p n : Option Nat} {xs ys : List Nat} {i : Nat}

/-- The slots of a chain belong to its segment. -/
lemma Chain.segment_of_mem (h : Chain links g p xs n) (hi : i ∈ xs) : (links i).segment = g := by
  induction xs generalizing p with
  | nil => simp at hi
  | cons j xs ih =>
    obtain ⟨hg, -, -, hrest⟩ := h
    rcases List.mem_cons.mp hi with rfl | hi
    · exact hg
    · exact ih hrest hi

/-- A chain depends on the links of its own slots only. -/
lemma Chain.congr (h : Chain links g p xs n) (heq : ∀ j ∈ xs, links' j = links j) :
    Chain links' g p xs n := by
  induction xs generalizing p with
  | nil => trivial
  | cons j xs ih =>
    obtain ⟨hg, hp, hn, hrest⟩ := h
    have hj : links' j = links j := heq j List.mem_cons_self
    exact ⟨by rw [hj, hg], by rw [hj, hp], by rw [hj, hn],
      ih hrest fun k hk => heq k (List.mem_cons_of_mem _ hk)⟩

/-- A chain of two lists is two chains that meet.

**Proof sketch.** Induction on the first list; the neighbour after its last slot is the first slot
of the second list, or what follows that list when it is empty. -/
lemma chain_append :
    Chain links g p (xs ++ ys) n ↔
      Chain links g p xs (ys.head?.or n) ∧ Chain links g (xs.getLast?.or p) ys n := by
  induction xs generalizing p with
  | nil => simp [Chain]
  | cons j xs ih =>
    have hlast : (xs.getLast?.or (some j)) = ((j :: xs).getLast?.or p) := by
      cases xs <;> simp [List.getLast?_cons]
    have hhead : (xs ++ ys).head?.or n = xs.head?.or (ys.head?.or n) := by
      cases xs <;> simp
    simp only [List.cons_append, Chain, ih, hlast, hhead]
    tauto

/-- A chain gets another neighbour before its first slot. -/
lemma Chain.reprev {p' : Option Nat} (h : Chain links g p xs n) (hnodup : xs.Nodup)
    (heq : ∀ j ∈ xs,
      links' j = if xs.head? = some j then { links j with prev := p' } else links j) :
    Chain links' g p' xs n := by
  cases xs with
  | nil => trivial
  | cons j xs =>
    obtain ⟨hg, -, hn, hrest⟩ := h
    have hj : links' j = { links j with prev := p' } := by
      simpa using heq j List.mem_cons_self
    refine ⟨by rw [hj, ← hg], by rw [hj], by rw [hj, ← hn], hrest.congr fun k hk => ?_⟩
    have hne : j ≠ k := by
      rintro rfl
      exact (List.nodup_cons.mp hnodup).1 hk
    simpa [hne] using heq k (List.mem_cons_of_mem _ hk)

/-- A chain gets another neighbour after its last slot.

**Proof sketch.** Induction on the list. Only the last slot's link changes; every earlier slot
differs from it because no slot occurs twice. -/
lemma Chain.renext {n' : Option Nat} (h : Chain links g p xs n) (hnodup : xs.Nodup)
    (heq : ∀ j ∈ xs,
      links' j = if xs.getLast? = some j then { links j with next := n' } else links j) :
    Chain links' g p xs n' := by
  induction xs generalizing p with
  | nil => trivial
  | cons j xs ih =>
    obtain ⟨hg, hp, hn, hrest⟩ := h
    obtain ⟨hnot, hnodup⟩ := List.nodup_cons.mp hnodup
    have hj := heq j List.mem_cons_self
    cases xs with
    | nil =>
      simp only [List.getLast?_singleton, ↓reduceIte] at hj
      exact ⟨by rw [hj, ← hg], by rw [hj, ← hp], by rw [hj]; rfl, trivial⟩
    | cons k xs =>
      have hne : (j :: k :: xs).getLast? ≠ some j := by
        intro hlast
        rw [List.getLast?_cons_cons] at hlast
        exact hnot (List.mem_of_getLast? hlast)
      rw [if_neg hne] at hj
      refine ⟨by rw [hj, hg], by rw [hj, hp], by rw [hj, hn]; rfl,
        ih hrest hnodup fun m hm => ?_⟩
      simpa [List.getLast?_cons_cons] using heq m (List.mem_cons_of_mem _ hm)

/-- **Cutting a node out of a chain**: when the neighbours of a node are linked to each other, the
slots before it and the slots after it form one chain.

**Proof sketch.** The slots before the node are a chain that ends at it and gets the node's
successor as its new end (`Chain.renext`); the slots after it get the node's predecessor
(`Chain.reprev`). The two meet by `chain_append`. -/
lemma Chain.cut (h : Chain links g none (xs ++ i :: ys) none) (hnodup : (xs ++ i :: ys).Nodup)
    (heq : ∀ j ∈ xs ++ ys, links' j =
      if xs.getLast? = some j then { links j with next := ys.head? }
      else if ys.head? = some j then { links j with prev := xs.getLast? }
      else links j) :
    Chain links' g none (xs ++ ys) none := by
  obtain ⟨hxs, -, -, -, hys⟩ := chain_append.mp h
  obtain ⟨hnx, hny, hdisj⟩ := List.nodup_append.mp hnodup
  have hapart : ∀ j ∈ xs, j ∉ ys := fun j hj hj' =>
    hdisj j hj j (List.mem_cons_of_mem _ hj') rfl
  refine chain_append.mpr ⟨?_, ?_⟩
  · rw [Option.or_none]
    refine hxs.renext hnx fun j hj => ?_
    have hne : ys.head? ≠ some j := fun hhead =>
      hapart j hj (List.mem_of_head? hhead)
    rw [heq j (List.mem_append_left _ hj), if_neg hne]
  · rw [Option.or_none]
    refine hys.reprev (List.nodup_cons.mp hny).2 fun j hj => ?_
    have hne : xs.getLast? ≠ some j := fun hlast =>
      hapart j (List.mem_of_getLast? hlast) hj
    rw [heq j (List.mem_append_right _ hj), if_neg hne]

/-- The neighbours that a node of a chain knows. -/
lemma Chain.neighbours (h : Chain links g none (xs ++ i :: ys) none) :
    (links i).prev = xs.getLast? ∧ (links i).next = ys.head? := by
  obtain ⟨-, -, hp, hn, -⟩ := chain_append.mp h
  exact ⟨by simpa using hp, by simpa using hn⟩

end

end LayeredCache.Eviction
