import Mathlib.Tactic.Lemma

/-!
# Lists of named things

A name is looked up in a list of things from the front. If all of them have different names, it
finds the one thing that has it.

## Main results

* `Named.lookup_eq_some_iff` — what is found under a name.
* `Named.lookup_eq_none` — when nothing is.
-/

set_option autoImplicit false

namespace LayeredCache.Named

variable {α : Type} {things : List (String × α)} {name : String} {a : α}

/-- What is found is in the list. -/
lemma mem_of_lookup (h : things.lookup name = some a) : (name, a) ∈ things := by
  obtain ⟨before, after, rfl, -⟩ := List.lookup_eq_some_iff.mp h
  exact List.mem_append_right _ List.mem_cons_self

/-- Under different names, each is found. -/
lemma lookup_of_mem (hnodup : (things.map Prod.fst).Nodup) (h : (name, a) ∈ things) :
    things.lookup name = some a := by
  induction things with
  | nil => cases h
  | cons thing things ih =>
    obtain ⟨other, b⟩ := thing
    rw [List.map_cons, List.nodup_cons] at hnodup
    obtain heq | hrest := List.mem_cons.mp h
    · cases heq
      rw [List.lookup_cons_self]
    · have hmem : name ∈ things.map Prod.fst := List.mem_map_of_mem hrest
      have hne : name ≠ other := fun heq => hnodup.1 (heq ▸ hmem)
      rw [List.lookup_cons, beq_eq_false_iff_ne.mpr hne]
      exact ih hnodup.2 hrest

/-- **What is found** under different names. -/
lemma lookup_eq_some_iff (hnodup : (things.map Prod.fst).Nodup) :
    things.lookup name = some a ↔ (name, a) ∈ things :=
  ⟨mem_of_lookup, lookup_of_mem hnodup⟩

/-- Nothing is found under a name that nothing has. -/
lemma lookup_eq_none (h : name ∉ things.map Prod.fst) : things.lookup name = none := by
  induction things with
  | nil => rfl
  | cons thing things ih =>
    obtain ⟨other, b⟩ := thing
    rw [List.map_cons, List.mem_cons, not_or] at h
    rw [List.lookup_cons, beq_eq_false_iff_ne.mpr h.1]
    exact ih h.2

end LayeredCache.Named
