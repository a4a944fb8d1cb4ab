import Mathlib.Data.Finmap
import LayeredCache.Proofs.Eviction.Operations

/-!
# A slab is a bounded finite map

What a slab answers to any sequence of calls is what a finite map of bounded size answers. The map
only ever loses a key by removal, or by the insertion of a new key when it is full; then the
insertion tells which entry went, and it is never the one that came.

## Main definitions

* `MapCall`, `MapAnswer` — the calls and their answers.
* `Slab.call`, `Slab.calls` — a slab answers one call, or several.
* `Lawful`, `LawfulRun` — the law of a finite map with at most `capacity` keys.

## Main results

* `Slab.call_lawful` — one call obeys the law.
* `Slab.calls_lawful` — every sequence of calls to a new slab obeys the law.
-/

set_option autoImplicit false

namespace LayeredCache.Eviction

/-! ## Calls -/

/-- A call to a map from texts to `V`. -/
inductive MapCall (V : Type) where
  | insert (key : String) (value : V)
  | get (key : String)
  | peek (key : String)
  | contains (key : String)
  | remove (key : String)
  | size

/-- The answer to a call. -/
inductive MapAnswer (V : Type) where
  /-- The entry that an insertion dropped, if it dropped one. -/
  | dropped (entry : Option (String × V))
  | value (value : Option V)
  | present (flag : Bool)
  | count (n : Nat)

variable {V : Type}

/-- A slab answers a call. -/
def Slab.call (s : Slab V) : MapCall V → MapAnswer V × Slab V
  | .insert key value =>
    let (dropped, s) := s.insert key value
    (.dropped dropped, s)
  | .get key =>
    let (value, s) := s.get key
    (.value value, s)
  | .peek key => (.value (s.peek key), s)
  | .contains key => (.present (s.contains key), s)
  | .remove key =>
    let (value, s) := s.remove key
    (.value value, s)
  | .size => (.count s.size, s)

/-- A slab answers one call after another. -/
def Slab.calls (s : Slab V) : List (MapCall V) → List (MapAnswer V) × Slab V
  | [] => ([], s)
  | call :: rest =>
    let (answer, s) := s.call call
    let (answers, s) := s.calls rest
    (answer :: answers, s)

/-! ## The law -/

/-- What a call to a finite map that may hold `capacity` keys is answered with, and which map it
leaves. -/
inductive Lawful (capacity : Nat) :
    Finmap (fun _ : String => V) → MapCall V → MapAnswer V → Finmap (fun _ : String => V) → Prop
  | get (m : Finmap fun _ : String => V) (key : String) :
    Lawful capacity m (.get key) (.value (m.lookup key)) m
  | peek (m : Finmap fun _ : String => V) (key : String) :
    Lawful capacity m (.peek key) (.value (m.lookup key)) m
  | contains (m : Finmap fun _ : String => V) (key : String) :
    Lawful capacity m (.contains key) (.present (decide (key ∈ m))) m
  | size (m : Finmap fun _ : String => V) :
    Lawful capacity m .size (.count m.keys.card) m
  | remove (m : Finmap fun _ : String => V) (key : String) :
    Lawful capacity m (.remove key) (.value (m.lookup key)) (m.erase key)
  /-- A key that is there gets another value. -/
  | replace (m : Finmap fun _ : String => V) (key : String) (value : V) (there : key ∈ m) :
    Lawful capacity m (.insert key value) (.dropped none) (m.insert key value)
  /-- A new key comes in while there is room. -/
  | add (m : Finmap fun _ : String => V) (key : String) (value : V) (new : key ∉ m)
      (room : m.keys.card < capacity) :
    Lawful capacity m (.insert key value) (.dropped none) (m.insert key value)
  /-- A new key comes in for another one. -/
  | exchange (m : Finmap fun _ : String => V) (key : String) (value : V) (new : key ∉ m)
      (full : m.keys.card = capacity) (key' : String) (value' : V) (other : key' ≠ key)
      (held : m.lookup key' = some value') :
    Lawful capacity m (.insert key value) (.dropped (some (key', value')))
      ((m.insert key value).erase key')

/-- What a sequence of calls is answered with, and which map it leaves. -/
inductive LawfulRun (capacity : Nat) :
    Finmap (fun _ : String => V) → List (MapCall V) → List (MapAnswer V) →
      Finmap (fun _ : String => V) → Prop
  | nil (m : Finmap fun _ : String => V) : LawfulRun capacity m [] [] m
  | cons {m m' m'' : Finmap fun _ : String => V} {call : MapCall V} {answer : MapAnswer V}
      {calls : List (MapCall V)} {answers : List (MapAnswer V)}
      (first : Lawful capacity m call answer m') (rest : LawfulRun capacity m' calls answers m'') :
    LawfulRun capacity m (call :: calls) (answer :: answers) m''

/-! ## Slabs obey the law -/

/-- The slab `s` is sound and holds what the finite map `m` holds. -/
structure Holds (s : Slab V) (m : Finmap fun _ : String => V) : Prop where
  sound : s.Sound
  lookup : ∀ key, m.lookup key = s.peek key
  card : m.keys.card = s.size

namespace Holds

variable {s : Slab V} {m : Finmap fun _ : String => V}

lemma mem_iff (h : Holds s m) (key : String) : key ∈ m ↔ s.peek key ≠ none := by
  rw [← h.lookup, ne_eq, Finmap.lookup_eq_none, not_not]

lemma card_insert (m : Finmap fun _ : String => V) (key : String) (value : V) :
    (m.insert key value).keys.card = if key ∈ m then m.keys.card else m.keys.card + 1 := by
  have hkeys : (m.insert key value).keys = Insert.insert key m.keys := by
    ext x
    simp [Finmap.mem_keys]
  rw [hkeys, Finset.card_insert_eq_ite]
  simp only [Finmap.mem_keys]

/-- An insertion into a slab is an insertion into the map, followed by the loss of what it
dropped. -/
lemma insert (h : Holds s m) (key : String) (value : V) :
    ∃ m', Lawful s.capacity m (.insert key value) (.dropped (s.insert key value).1) m' ∧
      Holds (s.insert key value).2 m' := by
  have hi := h.sound.insert key value
  have hmem := h.mem_iff key
  have hsize := hi.size
  have hpeek := hi.peek
  have hfull := hi.full
  have hlookup : ∀ x, (m.insert key value).lookup x = if x = key then some value else s.peek x := by
    intro x
    by_cases hx : x = key
    · rw [hx, Finmap.lookup_insert, if_pos rfl]
    · rw [Finmap.lookup_insert_of_ne m hx, h.lookup, if_neg hx]
  cases hdropped : (s.insert key value).1 with
  | none =>
    simp only [hdropped, Option.any_none, Bool.false_eq_true, if_false, if_true, ne_eq,
      not_true_eq_false, false_iff, not_and] at hsize hpeek hfull
    refine ⟨m.insert key value, ?_, hi.sound, fun x => by rw [hlookup, hpeek], ?_⟩
    · by_cases hkey : s.peek key = none
      · refine .add m key value (by simp [hmem, hkey]) ?_
        rw [h.card]
        exact Nat.lt_of_le_of_ne h.sound.size_le (hfull hkey)
      · exact .replace m key value (hmem.mpr hkey)
    · rw [card_insert, h.card]
      by_cases hkey : s.peek key = none
      · simp [hmem, hkey] at hsize ⊢
        omega
      · simp [hmem, hkey] at hsize ⊢
        omega
  | some e =>
    obtain ⟨key', value'⟩ := e
    obtain ⟨hne, hheld⟩ := hi.held (key', value') hdropped
    simp only [hdropped, Option.any_some, ne_eq, reduceCtorEq, not_false_eq_true, true_iff,
      if_false, beq_iff_eq] at hsize hpeek hfull
    obtain ⟨hkey, hfull⟩ := hfull
    have hnew : key ∉ m := by simp [hmem, hkey]
    refine ⟨(m.insert key value).erase key', .exchange m key value hnew (by rw [h.card, hfull])
      key' value' hne (by rw [h.lookup, hheld]), hi.sound, fun x => ?_, ?_⟩
    · by_cases hx : x = key'
      · rw [hx, Finmap.lookup_erase, hpeek, if_neg hne, if_pos rfl]
      · rw [Finmap.lookup_erase_ne hx, hlookup, hpeek, if_neg (Ne.symm hx)]
    · have hmem' : key' ∈ (m.insert key value).keys := by
        rw [Finmap.mem_keys, Finmap.mem_insert, h.mem_iff, hheld]
        exact .inr (by simp)
      rw [Finmap.keys_erase, Finset.card_erase_of_mem hmem', card_insert, if_neg hnew, h.card]
      simp only [hkey, if_true] at hsize
      omega

end Holds

/-- **One call to a slab** is answered as the finite map that it holds answers it. -/
theorem Slab.call_lawful {s : Slab V} {m : Finmap fun _ : String => V} (h : Holds s m)
    (call : MapCall V) :
    ∃ m', Lawful s.capacity m call (s.call call).1 m' ∧ Holds (s.call call).2 m' ∧
      (s.call call).2.capacity = s.capacity := by
  cases call with
  | insert key value =>
    obtain ⟨m', hlaw, hholds⟩ := h.insert key value
    exact ⟨m', hlaw, hholds, (h.sound.insert key value).capacity⟩
  | get key =>
    obtain ⟨hsound, hanswer, hsize, hcapacity, hpeek⟩ := h.sound.get key
    refine ⟨m, ?_, ⟨hsound, fun x => ?_, ?_⟩, hcapacity⟩
    · simp only [Slab.call, hanswer, ← h.lookup]
      exact .get m key
    · rw [h.lookup]
      exact (hpeek x).symm
    · rw [h.card]
      exact hsize.symm
  | peek key =>
    refine ⟨m, ?_, h, rfl⟩
    simp only [Slab.call, ← h.lookup]
    exact .peek m key
  | contains key =>
    refine ⟨m, ?_, h, rfl⟩
    have hmem : (s.peek key).isSome = decide (key ∈ m) := by
      rw [← h.lookup, Bool.eq_iff_iff, decide_eq_true_iff, Finmap.lookup_isSome]
    simp only [Slab.call, h.sound.contains_eq, hmem]
    exact .contains m key
  | remove key =>
    obtain ⟨hsound, hanswer, hsize, hcapacity, hpeek⟩ := h.sound.remove key
    refine ⟨m.erase key, ?_, ⟨hsound, fun x => ?_, ?_⟩, hcapacity⟩
    · simp only [Slab.call, hanswer, ← h.lookup]
      exact .remove m key
    · refine Eq.trans ?_ (hpeek x).symm
      by_cases hx : x = key
      · rw [hx, Finmap.lookup_erase, if_pos rfl]
      · rw [Finmap.lookup_erase_ne hx, h.lookup, if_neg hx]
    · refine Eq.trans ?_ hsize.symm
      simp only [Finmap.keys_erase, Finset.card_erase_eq_ite, Finmap.mem_keys, h.mem_iff, h.card]
      by_cases hkey : s.peek key = none <;> simp [hkey]
  | size =>
    refine ⟨m, ?_, h, rfl⟩
    simp only [Slab.call, ← h.card]
    exact .size m

/-- Calls one after another are answered as the finite map answers them.

**Proof sketch.** Induction on the calls, for all slabs and maps; each call obeys the law
(`Slab.call_lawful`), and what it leaves holds the map that the law leaves. -/
lemma Slab.calls_lawful_of_holds {s : Slab V} {m : Finmap fun _ : String => V} (h : Holds s m)
    (calls : List (MapCall V)) :
    ∃ m', LawfulRun s.capacity m calls (s.calls calls).1 m' ∧ Holds (s.calls calls).2 m' ∧
      (s.calls calls).2.capacity = s.capacity := by
  induction calls generalizing s m with
  | nil => exact ⟨m, .nil m, h, rfl⟩
  | cons call calls ih =>
    obtain ⟨m', hlaw, hholds, hcapacity⟩ := Slab.call_lawful h call
    obtain ⟨m'', hrun, hholds', hcapacity'⟩ := ih hholds
    rw [hcapacity] at hrun hcapacity'
    exact ⟨m'', .cons hlaw hrun, hholds', hcapacity'⟩

/-- A new slab holds nothing, and may hold as many entries as were asked for, but at least one. -/
lemma Slab.holds_new {hash : String → UInt64} {size samples : Nat} {s : Slab V}
    (h : Slab.new hash size samples = some s) : Holds s ∅ ∧ s.capacity = max size 1 := by
  unfold Slab.new at h
  split at h
  · obtain rfl := Option.some.inj h
    refine ⟨⟨sound_empty hash size samples, fun key => ?_, ?_⟩, ?_⟩
    · simp [peek, empty]
    · simp [Slab.size, empty]
    · simp only [capacity, empty, windowShare]
      omega
  · simp at h

/-- **A slab is a bounded finite map**: whatever its size, its samples and its hash function, a new
slab answers every sequence of calls as a finite map does that holds at most `max size 1` keys.
An insertion always leaves the key with its value; it drops an entry if and only if the key is new
and the map is full, and this is the entry of another key, the one that it reports. Nothing but a
removal and an insertion changes the map.

**Proof sketch.** `Slab.calls_lawful_of_holds` from the empty map. -/
theorem Slab.calls_lawful {hash : String → UInt64} {size samples : Nat} {s : Slab V}
    (h : Slab.new hash size samples = some s) (calls : List (MapCall V)) :
    ∃ m, LawfulRun (max size 1) ∅ calls (s.calls calls).1 m ∧
      (∀ key, (s.calls calls).2.peek key = m.lookup key) ∧
      (s.calls calls).2.size = m.keys.card ∧ m.keys.card ≤ max size 1 ∧
      (s.calls calls).2.capacity = max size 1 := by
  obtain ⟨hholds, hcapacity⟩ := Slab.holds_new h
  obtain ⟨m, hrun, hholds', hcapacity'⟩ := Slab.calls_lawful_of_holds hholds calls
  rw [hcapacity] at hrun hcapacity'
  refine ⟨m, hrun, fun key => (hholds'.lookup key).symm, hholds'.card.symm, ?_, hcapacity'⟩
  rw [hholds'.card, ← hcapacity']
  exact hholds'.sound.size_le

/-- The law holds of a slab for one entry that gets two keys. -/
theorem Slab.calls_lawful_single :
    Slab.new (fun _ => 0) 1 0 = some (empty (fun _ => 0) 1 0 : Slab Bool) ∧
      ∃ m, LawfulRun (max 1 1) ∅ [.insert "a" true, .insert "b" false, .get "a", .size]
        ((empty (fun _ => 0) 1 0 : Slab Bool).calls
          [.insert "a" true, .insert "b" false, .get "a", .size]).1 m ∧ m.keys.card ≤ max 1 1 := by
  have hnew : Slab.new (fun _ => 0) 1 0 = some (empty (fun _ => 0) 1 0 : Slab Bool) := by
    simp [new, sizeLimit]
  obtain ⟨m, hrun, -, -, hcard, -⟩ := Slab.calls_lawful hnew
    [.insert "a" true, .insert "b" false, .get "a", .size]
  exact ⟨hnew, m, hrun, hcard⟩

end LayeredCache.Eviction
