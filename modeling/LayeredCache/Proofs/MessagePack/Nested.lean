import LayeredCache.Proofs.MessagePack.Tokens
import LayeredCache.Value
import Mathlib.Data.List.Forall2
import Mathlib.Tactic.Lemma

/-!
# Nested values

What a reader has to know about a value to find it again among other bytes: how deep its containers
are nested, that no length is too great for a head, and that its type does not write different
values alike. The last asks for optional parts to be of types that are never written as nil: a
value that is present and nil is written as an absent one is.

## Main definitions

* `Value.depth`, `Value.lengthsFit`, `Value.Within` — the nesting and the lengths of a value.
* `Ty.nestable`, `Ty.storable` — types whose values come back wherever they stand, and those whose
  values come back when nothing stands around them.
* `Ty.Nested` — a value of a type of the first kind.
* `Value.parts` — what a value is built from.

## Main results

* `Value.induction_parts` — induction on what a value is built from.
* `Ty.Nested.list`, `Ty.Nested.record`, `Ty.Nested.choice`, … — the values of each kind of type.
* `Ty.Nested.refusal?_eq_none` — they can be written.
-/

set_option autoImplicit false

namespace LayeredCache

open MessagePack

/-! ## Depth and lengths -/

mutual

/-- How many containers are nested: sequences, maps and records, and owned byte strings, which are
written as sequences of numbers. The case of a choice is none. -/
def Value.depth : Value → Nat
  | .octets _ => 1
  | .present v => v.depth
  | .list vs => Value.depthAmong vs + 1
  | .map es => Value.depthInEntries es + 1
  | .record fs => Value.depthInFields fs + 1
  | .choice _ (some v) => v.depth
  | _ => 0

/-- The greatest depth among several values. -/
def Value.depthAmong : List Value → Nat
  | [] => 0
  | v :: vs => max v.depth (Value.depthAmong vs)

/-- The greatest depth among the keys and values of entries. -/
def Value.depthInEntries : List (Value × Value) → Nat
  | [] => 0
  | (k, v) :: es => max (max k.depth v.depth) (Value.depthInEntries es)

/-- The greatest depth among fields. -/
def Value.depthInFields : List (String × Value) → Nat
  | [] => 0
  | (_, v) :: fs => max v.depth (Value.depthInFields fs)

end

mutual

/-- Whether every length in a value is one that a head can hold: numbers of items and entries, and
of bytes of texts, byte strings and names. -/
def Value.lengthsFit : Value → Bool
  | .text s => (Utf8.encode s).length < lengthLimit
  | .octets bs => bs.length < lengthLimit
  | .buffer bs => bs.length < lengthLimit
  | .present v => v.lengthsFit
  | .list vs => vs.length < lengthLimit && Value.lengthsFitAmong vs
  | .map es => es.length < lengthLimit && Value.lengthsFitInEntries es
  | .record fs => fs.length < lengthLimit && Value.lengthsFitInFields fs
  | .choice case none => (Utf8.encode case).length < lengthLimit
  | .choice case (some v) => (Utf8.encode case).length < lengthLimit && v.lengthsFit
  | _ => true

/-- Whether every length in each of several values is one that a head can hold. -/
def Value.lengthsFitAmong : List Value → Bool
  | [] => true
  | v :: vs => v.lengthsFit && Value.lengthsFitAmong vs

/-- Whether every length in the keys and values of entries is one that a head can hold. -/
def Value.lengthsFitInEntries : List (Value × Value) → Bool
  | [] => true
  | (k, v) :: es => k.lengthsFit && v.lengthsFit && Value.lengthsFitInEntries es

/-- Whether every length in fields and their names is one that a head can hold. -/
def Value.lengthsFitInFields : List (String × Value) → Bool
  | [] => true
  | (n, v) :: fs =>
    (Utf8.encode n).length < lengthLimit && v.lengthsFit && Value.lengthsFitInFields fs

end

namespace Value

-- the equations of the recursions are made here, once, and not by each proof that asks first
attribute [local simp] depth depthAmong depthInEntries depthInFields
  lengthsFit lengthsFitAmong lengthsFitInEntries lengthsFitInFields

lemma depthAmong_le_iff {vs : List Value} {levels : Nat} :
    depthAmong vs ≤ levels ↔ ∀ v ∈ vs, v.depth ≤ levels := by
  induction vs with
  | nil => simp [depthAmong]
  | cons v vs ih => rw [depthAmong, Nat.max_le, ih, List.forall_mem_cons]

lemma depthInEntries_le_iff {es : List (Value × Value)} {levels : Nat} :
    depthInEntries es ≤ levels ↔ ∀ e ∈ es, e.1.depth ≤ levels ∧ e.2.depth ≤ levels := by
  induction es with
  | nil => simp [depthInEntries]
  | cons e es ih => rw [depthInEntries, Nat.max_le, Nat.max_le, ih, List.forall_mem_cons]

lemma depthInFields_le_iff {fs : List (String × Value)} {levels : Nat} :
    depthInFields fs ≤ levels ↔ ∀ f ∈ fs, f.2.depth ≤ levels := by
  induction fs with
  | nil => simp [depthInFields]
  | cons f fs ih => rw [depthInFields, Nat.max_le, ih, List.forall_mem_cons]

lemma lengthsFitAmong_iff {vs : List Value} :
    lengthsFitAmong vs = true ↔ ∀ v ∈ vs, v.lengthsFit = true := by
  induction vs with
  | nil => simp [lengthsFitAmong]
  | cons v vs ih => rw [lengthsFitAmong, Bool.and_eq_true, ih, List.forall_mem_cons]

lemma lengthsFitInEntries_iff {es : List (Value × Value)} :
    lengthsFitInEntries es = true ↔
      ∀ e ∈ es, e.1.lengthsFit = true ∧ e.2.lengthsFit = true := by
  induction es with
  | nil => simp [lengthsFitInEntries]
  | cons e es ih =>
    rw [lengthsFitInEntries, Bool.and_eq_true, Bool.and_eq_true, ih, List.forall_mem_cons]

lemma lengthsFitInFields_iff {fs : List (String × Value)} :
    lengthsFitInFields fs = true ↔
      ∀ f ∈ fs, (Utf8.encode f.1).length < lengthLimit ∧ f.2.lengthsFit = true := by
  induction fs with
  | nil => simp [lengthsFitInFields]
  | cons f fs ih =>
    rw [lengthsFitInFields, Bool.and_eq_true, Bool.and_eq_true, ih, List.forall_mem_cons,
      decide_eq_true_iff]

/-- A value that is nested no deeper than `levels` containers, and whose lengths fit. -/
structure Within (levels : Nat) (v : Value) : Prop where
  depth : v.depth ≤ levels
  lengths : v.lengthsFit = true

namespace Within

variable {levels : Nat}

lemma present {v : Value} (h : Within levels (.present v)) : Within levels v :=
  ⟨h.depth, h.lengths⟩

/-- Entering a sequence uses up a level. -/
lemma list {vs : List Value} (h : Within levels (.list vs)) :
    vs.length < lengthLimit ∧ ∃ inner, levels = inner + 1 ∧ ∀ v ∈ vs, Within inner v := by
  obtain ⟨hdepth, hlengths⟩ := h
  rw [lengthsFit, Bool.and_eq_true, decide_eq_true_iff, lengthsFitAmong_iff] at hlengths
  obtain ⟨inner, rfl⟩ := Nat.exists_eq_add_of_le' (Nat.one_le_of_lt hdepth)
  refine ⟨hlengths.1, inner, rfl, fun v hv => ⟨?_, hlengths.2 v hv⟩⟩
  exact depthAmong_le_iff.mp (Nat.le_of_succ_le_succ hdepth) v hv

/-- Entering a map uses up a level. -/
lemma map {es : List (Value × Value)} (h : Within levels (.map es)) :
    es.length < lengthLimit ∧
      ∃ inner, levels = inner + 1 ∧ ∀ e ∈ es, Within inner e.1 ∧ Within inner e.2 := by
  obtain ⟨hdepth, hlengths⟩ := h
  rw [lengthsFit, Bool.and_eq_true, decide_eq_true_iff, lengthsFitInEntries_iff] at hlengths
  obtain ⟨inner, rfl⟩ := Nat.exists_eq_add_of_le' (Nat.one_le_of_lt hdepth)
  have hinner := depthInEntries_le_iff.mp (Nat.le_of_succ_le_succ hdepth)
  exact ⟨hlengths.1, inner, rfl, fun e he =>
    ⟨⟨(hinner e he).1, (hlengths.2 e he).1⟩, ⟨(hinner e he).2, (hlengths.2 e he).2⟩⟩⟩

/-- Entering a record uses up a level. -/
lemma record {fs : List (String × Value)} (h : Within levels (.record fs)) :
    fs.length < lengthLimit ∧ ∃ inner, levels = inner + 1 ∧
      ∀ f ∈ fs, (Utf8.encode f.1).length < lengthLimit ∧ Within inner f.2 := by
  obtain ⟨hdepth, hlengths⟩ := h
  rw [lengthsFit, Bool.and_eq_true, decide_eq_true_iff, lengthsFitInFields_iff] at hlengths
  obtain ⟨inner, rfl⟩ := Nat.exists_eq_add_of_le' (Nat.one_le_of_lt hdepth)
  have hinner := depthInFields_le_iff.mp (Nat.le_of_succ_le_succ hdepth)
  exact ⟨hlengths.1, inner, rfl, fun f hf =>
    ⟨(hlengths.2 f hf).1, hinner f hf, (hlengths.2 f hf).2⟩⟩

/-- The case of a choice stands at the choice's level. -/
lemma choice {case : String} {v : Value} (h : Within levels (.choice case (some v))) :
    (Utf8.encode case).length < lengthLimit ∧ Within levels v := by
  obtain ⟨hdepth, hlengths⟩ := h
  rw [lengthsFit, Bool.and_eq_true, decide_eq_true_iff] at hlengths
  exact ⟨hlengths.1, hdepth, hlengths.2⟩

end Within

/-! ## Induction -/

/-- What a value is built from. -/
def parts : Value → List Value
  | .present v => [v]
  | .list vs => vs
  | .map es => es.flatMap fun e => [e.1, e.2]
  | .record fs => fs.map Prod.snd
  | .choice _ (some v) => [v]
  | _ => []

lemma key_mem_parts {es : List (Value × Value)} {e : Value × Value} (h : e ∈ es) :
    e.1 ∈ (Value.map es).parts :=
  List.mem_flatMap.mpr ⟨e, h, List.mem_cons_self⟩

lemma value_mem_parts {es : List (Value × Value)} {e : Value × Value} (h : e ∈ es) :
    e.2 ∈ (Value.map es).parts :=
  List.mem_flatMap.mpr ⟨e, h, List.mem_cons_of_mem _ List.mem_cons_self⟩

/-- Parts are smaller than what is built from them. -/
lemma sizeOf_lt_of_mem_parts {v w : Value} (h : w ∈ v.parts) : sizeOf w < sizeOf v := by
  cases v with
  | present v =>
    obtain rfl := List.mem_singleton.mp h
    rw [Value.present.sizeOf_spec]
    omega
  | list vs =>
    have hw : sizeOf w < sizeOf vs := List.sizeOf_lt_of_mem h
    rw [Value.list.sizeOf_spec]
    omega
  | map es =>
    obtain ⟨⟨key, value⟩, he, hw⟩ := List.mem_flatMap.mp h
    have hentry := List.sizeOf_lt_of_mem he
    rw [Prod.mk.sizeOf_spec] at hentry
    rw [Value.map.sizeOf_spec]
    rcases List.mem_pair.mp hw with rfl | rfl
    · omega
    · omega
  | record fs =>
    obtain ⟨⟨name, value⟩, hf, rfl⟩ := List.mem_map.mp h
    have hfield := List.sizeOf_lt_of_mem hf
    rw [Prod.mk.sizeOf_spec] at hfield
    rw [Value.record.sizeOf_spec]
    dsimp only
    omega
  | choice case payload =>
    cases payload with
    | none => cases h
    | some v =>
      obtain rfl := List.mem_singleton.mp h
      rw [Value.choice.sizeOf_spec, Option.some.sizeOf_spec]
      omega
  | _ => cases h

/-- **Induction on what a value is built from.** -/
@[elab_as_elim]
theorem induction_parts {motive : Value → Prop}
    (step : ∀ v, (∀ w ∈ v.parts, motive w) → motive v) (v : Value) : motive v :=
  step v fun w _ => induction_parts step w
termination_by sizeOf v
decreasing_by exact sizeOf_lt_of_mem_parts ‹_›

/-! ## Refusals -/

lemma refusalAmong?_eq_none {vs : List Value} (h : ∀ v ∈ vs, v.refusal? = none) :
    refusalAmong? vs = none := by
  induction vs with
  | nil => rfl
  | cons v vs ih =>
    rw [List.forall_mem_cons] at h
    rw [refusalAmong?, h.1, ih h.2]
    rfl

lemma refusalInEntries?_eq_none {es : List (Value × Value)}
    (h : ∀ e ∈ es, e.1.refusal? = none ∧ e.2.refusal? = none) : refusalInEntries? es = none := by
  induction es with
  | nil => rfl
  | cons e es ih =>
    rw [List.forall_mem_cons] at h
    rw [refusalInEntries?, h.1.1, h.1.2, ih h.2]
    rfl

lemma refusalInFields?_eq_none {fs : List (String × Value)} (h : ∀ f ∈ fs, f.2.refusal? = none) :
    refusalInFields? fs = none := by
  induction fs with
  | nil => rfl
  | cons f fs ih =>
    rw [List.forall_mem_cons] at h
    rw [refusalInFields?, h.1, ih h.2]
    rfl

end Value

/-! ## Types -/

/-- Whether values of a type without parts come back: not text that lives as long as the program,
which cannot be read, nor values that describe themselves or refuse to be written. -/
def Scalar.nestable : Scalar → Bool
  | .literal | .dynamic _ | .sealed _ _ => false
  | _ => true

/-- Whether a type has a value that is written as nil. -/
def Ty.nilable : Ty → Bool
  | .scalar .unit => true
  | .option _ => true
  | _ => false

mutual

/-- Whether values of a type come back wherever they stand. What is optional must not be written as
nil when it is present, and the fields of a record must have different names. -/
def Ty.nestable : Ty → Bool
  | .scalar s => s.nestable
  | .option t => !t.nilable && t.nestable
  | .list t => t.nestable
  | .array _ t => t.nestable
  | .tuple ts => Ty.areNestable ts
  | .map k v => k.nestable && v.nestable
  | .record _ fs => decide (fs.map Prod.fst).Nodup && Ty.fieldsNestable fs
  | .self => true
  | .choice _ cs => Ty.casesNestable cs

/-- Whether values of each of several types come back wherever they stand. -/
def Ty.areNestable : List Ty → Bool
  | [] => true
  | t :: ts => t.nestable && Ty.areNestable ts

/-- Whether values of the types of fields come back wherever they stand. -/
def Ty.fieldsNestable : List (String × Ty) → Bool
  | [] => true
  | (_, t) :: fs => t.nestable && Ty.fieldsNestable fs

/-- Whether the payloads of cases come back wherever they stand. -/
def Ty.casesNestable : List (String × Option Ty) → Bool
  | [] => true
  | (_, none) :: cs => Ty.casesNestable cs
  | (_, some t) :: cs => t.nestable && Ty.casesNestable cs

end

/-- Whether values of a type come back when nothing stands around them. What is optional may then be
optional again, and may be written as nil. -/
def Ty.storable : Ty → Bool
  | .option t => t.storable
  | t => t.nestable

/-- Whether a type may stand for `Ty.self`: it is a record whose values come back, or no record, so
that nothing can refer to it. -/
def Ty.enclosing : Ty → Bool
  | .record name fields => (Ty.record name fields).nestable
  | _ => true

namespace Ty

/-- A value of a type whose values come back wherever they stand. -/
structure Nested (outer ty : Ty) (v : Value) : Prop where
  enclosing : outer.enclosing = true
  nestable : ty.nestable = true
  admits : Ty.admits outer ty v = true

/-! ## The values of each kind of type -/

variable {outer : Ty}

lemma admitsEach_iff {t : Ty} {vs : List Value} :
    admitsEach outer t vs = true ↔ ∀ v ∈ vs, admits outer t v = true := by
  induction vs with
  | nil => simp [admitsEach]
  | cons v vs ih => rw [admitsEach, Bool.and_eq_true, ih, List.forall_mem_cons]

lemma admitsEntries_iff {key value : Ty} {es : List (Value × Value)} :
    admitsEntries outer key value es = true ↔
      ∀ e ∈ es, admits outer key e.1 = true ∧ admits outer value e.2 = true := by
  induction es with
  | nil => simp [admitsEntries]
  | cons e es ih =>
    rw [admitsEntries, Bool.and_eq_true, Bool.and_eq_true, ih, List.forall_mem_cons]

/-- What stands in the second of two lists that are related one by one has a partner. -/
lemma exists_of_mem {α β : Type} {R : α → β → Prop} {as : List α} {bs : List β} {b : β}
    (h : List.Forall₂ R as bs) (hb : b ∈ bs) : ∃ a ∈ as, R a b := by
  induction h with
  | nil => cases hb
  | cons hab _ ih =>
    obtain rfl | hb := List.mem_cons.mp hb
    · exact ⟨_, List.mem_cons_self, hab⟩
    · obtain ⟨a, ha, haR⟩ := ih hb
      exact ⟨a, List.mem_cons_of_mem _ ha, haR⟩

namespace Nested

/-- One value of each of several types. -/
lemma all {ts : List Ty} {vs : List Value} (houter : outer.enclosing = true)
    (hts : areNestable ts = true) (hvs : admitsAll outer ts vs = true) :
    List.Forall₂ (Nested outer) ts vs := by
  induction ts generalizing vs with
  | nil =>
    cases vs with
    | nil => exact .nil
    | cons v vs => cases hvs
  | cons t ts ih =>
    cases vs with
    | nil => cases hvs
    | cons v vs =>
      rw [areNestable, Bool.and_eq_true] at hts
      rw [admitsAll, Bool.and_eq_true] at hvs
      exact .cons ⟨houter, hts.1, hvs.1⟩ (ih hts.2 hvs.2)

/-- A value for each of the fields of a record, under its name. -/
lemma fields {fs : List (String × Ty)} {vs : List (String × Value)}
    (houter : outer.enclosing = true) (hfs : fieldsNestable fs = true)
    (hvs : admitsFields outer fs vs = true) :
    fs.map Prod.fst = vs.map Prod.fst ∧ ∀ v ∈ vs, ∃ t, (v.1, t) ∈ fs ∧ Nested outer t v.2 := by
  induction fs generalizing vs with
  | nil =>
    cases vs with
    | nil => exact ⟨rfl, fun v hv => nomatch hv⟩
    | cons v vs => cases hvs
  | cons f fs ih =>
    cases vs with
    | nil => cases hvs
    | cons v vs =>
      rw [fieldsNestable, Bool.and_eq_true] at hfs
      rw [admitsFields, Bool.and_eq_true, Bool.and_eq_true, beq_iff_eq] at hvs
      obtain ⟨hnames, hrest⟩ := ih hfs.2 hvs.2
      obtain ⟨⟨hname, hv⟩, -⟩ := hvs
      refine ⟨by rw [List.map_cons, List.map_cons, hname, hnames], ?_⟩
      refine List.forall_mem_cons.mpr ⟨⟨f.2, ?_, houter, hfs.1, hv⟩, fun w hw => ?_⟩
      · rw [← hname]
        exact List.mem_cons_self
      · obtain ⟨t, ht, hnested⟩ := hrest w hw
        exact ⟨t, List.mem_cons_of_mem _ ht, hnested⟩

lemma payload {case : String} {cs : List (String × Option Ty)} {t : Ty}
    (hcs : casesNestable cs = true) (hcase : payload? case cs = some (some t)) :
    t.nestable = true := by
  induction cs with
  | nil => cases hcase
  | cons c cs ih =>
    obtain ⟨name, payload⟩ := c
    rw [payload?] at hcase
    split at hcase
    · obtain rfl := Option.some.inj hcase
      rw [casesNestable, Bool.and_eq_true] at hcs
      exact hcs.1
    · cases payload with
      | none => exact ih hcs hcase
      | some p =>
        rw [casesNestable, Bool.and_eq_true] at hcs
        exact ih hcs.2 hcase

variable {v : Value}

lemma option {t : Ty} (h : Nested outer (.option t) v) :
    t.nilable = false ∧ (v = .absent ∨ ∃ w, v = .present w ∧ Nested outer t w) := by
  obtain ⟨houter, hty, hv⟩ := h
  rw [Ty.nestable, Bool.and_eq_true, Bool.not_eq_true'] at hty
  refine ⟨hty.1, ?_⟩
  cases v with
  | absent => exact .inl rfl
  | present w => exact .inr ⟨w, rfl, houter, hty.2, hv⟩
  | _ => cases hv

lemma list {t : Ty} (h : Nested outer (.list t) v) :
    ∃ vs, v = .list vs ∧ ∀ w ∈ vs, Nested outer t w := by
  obtain ⟨houter, hty, hv⟩ := h
  cases v with
  | list vs => exact ⟨vs, rfl, fun w hw => ⟨houter, hty, admitsEach_iff.mp hv w hw⟩⟩
  | _ => cases hv

lemma array {n : Nat} {t : Ty} (h : Nested outer (.array n t) v) :
    ∃ vs, v = .list vs ∧ vs.length = n ∧ ∀ w ∈ vs, Nested outer t w := by
  obtain ⟨houter, hty, hv⟩ := h
  cases v with
  | list vs =>
    rw [Ty.admits, Bool.and_eq_true, beq_iff_eq] at hv
    exact ⟨vs, rfl, hv.1, fun w hw => ⟨houter, hty, admitsEach_iff.mp hv.2 w hw⟩⟩
  | _ => cases hv

lemma tuple {ts : List Ty} (h : Nested outer (.tuple ts) v) :
    ∃ vs, v = .list vs ∧ List.Forall₂ (Nested outer) ts vs := by
  obtain ⟨houter, hty, hv⟩ := h
  cases v with
  | list vs => exact ⟨vs, rfl, all houter hty hv⟩
  | _ => cases hv

lemma map {k t : Ty} (h : Nested outer (.map k t) v) :
    ∃ es, v = .map es ∧ Value.keysAscend es = true ∧
      ∀ e ∈ es, Nested outer k e.1 ∧ Nested outer t e.2 := by
  obtain ⟨houter, hty, hv⟩ := h
  rw [Ty.nestable, Bool.and_eq_true] at hty
  cases v with
  | map es =>
    rw [Ty.admits, Bool.and_eq_true] at hv
    have hes := admitsEntries_iff.mp hv.2
    exact ⟨es, rfl, hv.1, fun e he =>
      ⟨⟨houter, hty.1, (hes e he).1⟩, ⟨houter, hty.2, (hes e he).2⟩⟩⟩
  | _ => cases hv

/-- The values of a record's fields have the record around them. -/
lemma record {name : String} {fs : List (String × Ty)}
    (h : Nested outer (.record name fs) v) :
    ∃ vs, v = .record vs ∧ (fs.map Prod.fst).Nodup ∧ fs.map Prod.fst = vs.map Prod.fst ∧
      ∀ v ∈ vs, ∃ t, (v.1, t) ∈ fs ∧ Nested (.record name fs) t v.2 := by
  obtain ⟨-, hty, hv⟩ := h
  have hfs := hty
  rw [Ty.nestable, Bool.and_eq_true, decide_eq_true_iff] at hfs
  cases v with
  | record vs => exact ⟨vs, rfl, hfs.1, fields hty hfs.2 hv⟩
  | _ => cases hv

/-- What refers to the nearest record is a value of it. -/
lemma self (h : Nested outer .self v) :
    ∃ name fs, outer = .record name fs ∧ Nested outer (.record name fs) v := by
  obtain ⟨houter, -, hv⟩ := h
  cases v with
  | record vs =>
    cases outer with
    | record name fs => exact ⟨name, fs, rfl, houter, houter, hv⟩
    | _ => cases hv
  | _ => cases hv

lemma choice {name : String} {cs : List (String × Option Ty)}
    (h : Nested outer (.choice name cs) v) :
    (∃ case, v = .choice case none ∧ payload? case cs = some none) ∨
    (∃ case w t, v = .choice case (some w) ∧ payload? case cs = some (some t) ∧
      Nested outer t w) := by
  obtain ⟨houter, hty, hv⟩ := h
  cases v with
  | choice case payload =>
    cases payload with
    | none =>
      rw [Ty.admits] at hv
      split at hv
      · exact .inl ⟨case, rfl, ‹_›⟩
      · cases hv
    | some w =>
      rw [Ty.admits] at hv
      split at hv
      · rename_i t hcase
        exact .inr ⟨case, w, t, rfl, hcase, houter, payload hty hcase, hv⟩
      · cases hv
  | _ => cases hv

/-! ## Writing -/

/-- A value without parts can be written. -/
lemma refusal?_scalar {s : Scalar} (h : Nested outer (.scalar s) v) : v.refusal? = none := by
  obtain ⟨-, hty, hv⟩ := h
  cases v with
  | present _ | list _ | map _ | record _ | choice _ _ | sealed _ =>
    cases s <;> first | cases hv | cases hty
  | _ => rfl

/-- A record whose fields can be written can be written. -/
lemma refusal?_record {name : String} {fs : List (String × Ty)}
    (h : Nested outer (.record name fs) v)
    (ih : ∀ w ∈ v.parts, ∀ {outer ty : Ty}, Nested outer ty w → w.refusal? = none) :
    v.refusal? = none := by
  obtain ⟨vs, rfl, -, -, hvs⟩ := h.record
  refine Value.refusalInFields?_eq_none fun w hw => ?_
  obtain ⟨t, -, ht⟩ := hvs w hw
  exact ih w.2 (List.mem_map_of_mem hw) ht

/-- **A nested value can be written.**

**Proof sketch.** By induction on what the value is built from, one case for each kind of type: only
a sealed part refuses, and its type is not one whose values come back. -/
theorem refusal?_eq_none {ty : Ty} (h : Nested outer ty v) : v.refusal? = none := by
  induction v using Value.induction_parts generalizing outer ty with
  | step v ih =>
    cases ty with
    | scalar s => exact h.refusal?_scalar
    | option t =>
      obtain ⟨-, rfl | ⟨w, rfl, hw⟩⟩ := h.option
      · rfl
      · exact ih w (List.mem_singleton.mpr rfl) hw
    | list t =>
      obtain ⟨vs, rfl, hvs⟩ := h.list
      exact Value.refusalAmong?_eq_none fun w hw => ih w hw (hvs w hw)
    | array n t =>
      obtain ⟨vs, rfl, -, hvs⟩ := h.array
      exact Value.refusalAmong?_eq_none fun w hw => ih w hw (hvs w hw)
    | tuple ts =>
      obtain ⟨vs, rfl, hvs⟩ := h.tuple
      refine Value.refusalAmong?_eq_none fun w hw => ?_
      obtain ⟨t, -, ht⟩ := exists_of_mem hvs hw
      exact ih w hw ht
    | map k t =>
      obtain ⟨es, rfl, -, hes⟩ := h.map
      exact Value.refusalInEntries?_eq_none fun e he =>
        ⟨ih e.1 (Value.key_mem_parts he) (hes e he).1,
          ih e.2 (Value.value_mem_parts he) (hes e he).2⟩
    | record name fs => exact h.refusal?_record ih
    | self =>
      obtain ⟨name, fs, rfl, hrecord⟩ := h.self
      exact hrecord.refusal?_record ih
    | choice name cs =>
      obtain ⟨case, rfl, -⟩ | ⟨case, w, t, rfl, -, hw⟩ := h.choice
      · rfl
      · exact ih w (List.mem_singleton.mpr rfl) hw

end Nested

end Ty

end LayeredCache
