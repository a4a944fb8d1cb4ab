import LayeredCache.Directory
import LayeredCache.Proofs.Named
import Mathlib.Data.List.Nodup
import Mathlib.Data.String.Basic

/-!
# What a directory lists

A directory keeps the registrations that it accepted. Its names stand in ascending order, each with
the handle that was registered under it, and the first registration is the default. It accepts a
name that is not empty and that it does not know.

## Main definitions

* `Directory.Lists` — a directory keeps some registrations, the earliest first.

## Main results

* `Directory.place_perm`, `Directory.ascending_place` — a new name at its place.
* `Directory.Lists.register_iff`, `Directory.Lists.registered` — what is accepted, and that it is
  kept.
* `Directory.Lists.find_iff`, `Directory.Lists.defaultHandle_cons` — what a directory answers.
-/

set_option autoImplicit false

namespace LayeredCache.Directory

variable {α : Type} {name : String} {handle : α}

/-! ## A name at its place -/

/-- A new entry is put among the others. -/
lemma place_perm (name : String) (handle : α) (entries : List (String × α)) :
    (place name handle entries).Perm ((name, handle) :: entries) := by
  induction entries with
  | nil => exact .refl _
  | cons entry rest ih =>
    rw [place]
    split
    · exact .refl _
    · exact (ih.cons entry).trans (.swap _ _ _)

/-- The names stay in ascending order.

**Proof sketch.** Induction on the entries. A new name that is not below the first one is above it,
and so are all names behind the first. -/
lemma ascending_place {entries : List (String × α)}
    (hascending : (entries.map Prod.fst).Pairwise (· < ·))
    (hnew : name ∉ entries.map Prod.fst) :
    ((place name handle entries).map Prod.fst).Pairwise (· < ·) := by
  induction entries with
  | nil => exact List.pairwise_singleton _ _
  | cons entry rest ih =>
    obtain ⟨first, h⟩ := entry
    obtain ⟨hfirst, hrest⟩ := List.pairwise_cons.mp hascending
    rw [List.map_cons, List.mem_cons, not_or] at hnew
    rw [place]
    by_cases hbelow : name < first
    · rw [if_pos hbelow]
      refine List.pairwise_cons.mpr ⟨fun other hother => ?_, hascending⟩
      obtain rfl | hother := List.mem_cons.mp hother
      · exact hbelow
      · exact hbelow.trans (hfirst other hother)
    · rw [if_neg hbelow]
      refine List.pairwise_cons.mpr ⟨fun other hother => ?_, ih hrest hnew.2⟩
      have habove : first < name := lt_of_le_of_ne (not_lt.mp hbelow) (Ne.symm hnew.1)
      have hmem := ((place_perm name handle rest).map Prod.fst).mem_iff.mp hother
      obtain rfl | hother := List.mem_cons.mp hmem
      · exact habove
      · exact hfirst other hother

/-! ## Registrations -/

/-- A directory keeps some registrations, the earliest first. -/
structure Lists (d : Directory α) (roll : List (String × α)) : Prop where
  entries : d.entries.Perm roll
  ascending : d.names.Pairwise (· < ·)
  named : "" ∉ roll.map Prod.fst
  /-- The first registration makes the default. -/
  default : d.default = roll.head?.map Prod.fst

/-- A new directory keeps none. -/
lemma lists_empty : ({} : Directory α).Lists [] where
  entries := .refl _
  ascending := List.Pairwise.nil
  named := List.not_mem_nil
  default := rfl

/-- The empty name is refused. -/
lemma register_empty (d : Directory α) (handle : α) :
    d.register "" handle = .error .emptyName := rfl

namespace Lists

variable {d d' : Directory α} {roll : List (String × α)}

/-- The names are those of the registrations. -/
lemma mem_names (h : d.Lists roll) : name ∈ d.names ↔ name ∈ roll.map Prod.fst :=
  (h.entries.map Prod.fst).mem_iff

/-- No name is registered twice. -/
lemma nodup (h : d.Lists roll) : (roll.map Prod.fst).Nodup :=
  (h.entries.map Prod.fst).nodup_iff.mp h.ascending.nodup

/-- The handle under a name is that of its registration. -/
lemma lookup_iff (h : d.Lists roll) :
    d.entries.lookup name = some handle ↔ (name, handle) ∈ roll :=
  (Named.lookup_eq_some_iff h.ascending.nodup).trans h.entries.mem_iff

/-- **A name leads** to the handle that was registered under it. -/
lemma find_iff (h : d.Lists roll) : d.find name = .ok handle ↔ (name, handle) ∈ roll := by
  rw [← h.lookup_iff, find]
  cases d.entries.lookup name with
  | none => simp
  | some other => simp

/-- A name that was not registered leads nowhere. -/
lemma find_unknown (h : d.Lists roll) (hnew : name ∉ roll.map Prod.fst) :
    d.find name = .error (.unknown name) := by
  have hnone : d.entries.lookup name = none :=
    Named.lookup_eq_none (h.mem_names.not.mpr hnew)
  rw [find, hnone]

/-- Before the first registration there is no default. -/
lemma defaultHandle_nil (h : d.Lists []) : d.defaultHandle = .error .noDefault := by
  rw [defaultHandle, h.default]
  rfl

/-- The default is the handle of the first registration. -/
lemma defaultHandle_cons {first : String × α} (h : d.Lists (first :: roll)) :
    d.defaultHandle = .ok first.2 := by
  have hfirst : d.entries.lookup first.1 = some first.2 := h.lookup_iff.mpr List.mem_cons_self
  rw [defaultHandle, h.default, List.head?_cons, Option.map_some, Option.bind_some, hfirst]

/-- A name that is taken is refused. -/
lemma register_taken (h : d.Lists roll) (htaken : name ∈ roll.map Prod.fst) (handle : α) :
    d.register name handle = .error (.taken name) := by
  have hname : name ≠ "" := fun heq => h.named (heq ▸ htaken)
  have hcontains : d.names.contains name = true :=
    List.contains_iff_mem.mpr (h.mem_names.mpr htaken)
  rw [register, if_neg (String.isEmpty_iff.not.mpr hname), if_pos hcontains]

/-- A new name is entered at its place, and is the default if it is the first. -/
lemma register_of_new (hname : name ≠ "") (hfree : name ∉ d.names) (handle : α) :
    d.register name handle =
      .ok { entries := place name handle d.entries, default := d.default.or (some name) } := by
  rw [register, if_neg (String.isEmpty_iff.not.mpr hname),
    if_neg (List.contains_iff_mem.not.mpr hfree)]

/-- **A new name is accepted**, and its registration is kept as the last. -/
lemma register_new (h : d.Lists roll) (hname : name ≠ "") (hnew : name ∉ roll.map Prod.fst)
    (handle : α) :
    ∃ d', d.register name handle = .ok d' ∧ d'.Lists (roll ++ [(name, handle)]) := by
  have hfree : name ∉ d.names := h.mem_names.not.mpr hnew
  refine ⟨_, register_of_new hname hfree handle, ?_, ascending_place h.ascending hfree, ?_, ?_⟩
  · have hlast : (roll ++ [(name, handle)]).Perm ((name, handle) :: roll) :=
      List.perm_append_singleton _ _
    exact (place_perm name handle d.entries).trans ((h.entries.cons _).trans hlast.symm)
  · rw [List.map_append, List.mem_append, not_or]
    exact ⟨h.named, fun hmem => hname (List.mem_singleton.mp hmem).symm⟩
  · rw [h.default]
    cases roll with
    | nil => rfl
    | cons first rest => rfl

/-- **What is accepted**: a name that is not empty and was not registered before. -/
lemma register_iff (h : d.Lists roll) (name : String) (handle : α) :
    (∃ d', d.register name handle = .ok d') ↔ name ≠ "" ∧ name ∉ roll.map Prod.fst := by
  constructor
  · rintro ⟨d', hd'⟩
    refine ⟨fun hempty => ?_, fun htaken => ?_⟩
    · rw [hempty, register_empty] at hd'
      cases hd'
    · rw [h.register_taken htaken] at hd'
      cases hd'
  · rintro ⟨hname, hnew⟩
    obtain ⟨d', hd', -⟩ := h.register_new hname hnew handle
    exact ⟨d', hd'⟩

/-- A registration that is accepted is kept as the last. -/
lemma registered (h : d.Lists roll) (hd' : d.register name handle = .ok d') :
    d'.Lists (roll ++ [(name, handle)]) := by
  obtain ⟨hname, hnew⟩ := (h.register_iff name handle).mp ⟨d', hd'⟩
  obtain ⟨d'', hd'', hlists⟩ := h.register_new hname hnew handle
  rw [hd'] at hd''
  cases hd''
  exact hlists

end Lists

end LayeredCache.Directory
