import LayeredCache.Proofs.Eviction.Layout

/-!
# What the operations do to a slab

A slab is *sound* when it has a layout whose segments keep to their capacities. The empty slab is
sound and every operation keeps it so. Beside this, one lemma for each operation says what it
answers and what it does to the look-ups: reading changes none of them, a removal changes one, and
an insertion changes the key's own and that of the entry which is dropped for it.

## Main definitions

* `Slab.refreshed` — the slots of the segments after a node was hit.
* `Slab.Fits` — the segments keep to their capacities.
* `Slab.Sound` — a layout that fits.
* `Slab.Inserted` — what an insertion leaves.

## Main results

* `Slab.sound_empty` — an empty slab is sound.
* `Slab.Layout.touch`, `Slab.Layout.contend_of_full` — how a hit and a competition move the slots.
* `Slab.Sound.get`, `Slab.Sound.remove`, `Slab.Sound.insert` — the operations.
-/

set_option autoImplicit false

namespace LayeredCache.Eviction

namespace Slab

variable {V : Type} {s s' : Slab V} {lists : Segment → List Nat} {loose : List Nat} {i : Nat}
  {g : Segment}

/-! ## Look-ups -/

/-- A look-up finds what some slot holds under the key. -/
lemma Layout.peek_eq_some_iff (h : Layout s lists loose) {key : String} {value : V} :
    s.peek key = some value ↔ ∃ i, s.entryAt i = some (key, value) := by
  simp only [peek, Option.bind_eq_some_iff, Option.map_eq_some_iff]
  constructor
  · rintro ⟨i, hi, ⟨key', v⟩, he, rfl⟩
    obtain ⟨v', hv'⟩ := (h.index key i).mp hi
    rw [hv', Option.some.injEq, Prod.mk.injEq] at he
    exact ⟨i, by rw [hv', he.2]⟩
  · rintro ⟨i, hi⟩
    exact ⟨i, (h.index key i).mpr ⟨value, hi⟩, (key, value), hi, rfl⟩

/-- A key is found in the slot to which the index leads. -/
lemma Layout.peek_of_entry (h : Layout s lists loose) {key : String} {value : V}
    (hi : s.entryAt i = some (key, value)) : s.peek key = some value :=
  h.peek_eq_some_iff.mpr ⟨i, hi⟩

lemma Rearranged.peek (h : Rearranged s s') (key : String) : s'.peek key = s.peek key := by
  simp only [Slab.peek, h.index, h.entryAt]

lemma Rearranged.size (h : Rearranged s s') : s'.size = s.size := by
  simp only [Slab.size, h.index]

lemma Rearranged.slabCapacity (h : Rearranged s s') : s'.capacity = s.capacity := by
  have hw : s'.window.capacity = s.window.capacity := h.capacity .window
  rw [Slab.capacity, Slab.capacity, hw, h.mainCapacity]

@[simp] lemma index_record (s : Slab V) (key : String) : (s.record key).index = s.index := by
  simp only [record]

@[simp] lemma entryAt_record (s : Slab V) (key : String) (i : Nat) :
    (s.record key).entryAt i = s.entryAt i := by
  simp only [entryAt, record]

@[simp] lemma peek_record (s : Slab V) (key key' : String) :
    (s.record key).peek key' = s.peek key' := by
  simp only [peek, index_record, entryAt_record]

@[simp] lemma size_record (s : Slab V) (key : String) : (s.record key).size = s.size := by
  simp only [size, index_record]

@[simp] lemma capacity_record (s : Slab V) (key : String) :
    (s.record key).capacity = s.capacity := by
  simp only [capacity, record]

/-- What a release does to the look-ups. -/
lemma Layout.peek_release {key : String} {value : V} (h : Layout s lists (i :: loose))
    (hi : s.entryAt i = some (key, value)) (key' : String) :
    (s.release i).2.peek key' = if key' = key then none else s.peek key' := by
  have hindex : s.index[key]? = some i := (h.index key i).mpr ⟨value, hi⟩
  have hentry := entryAt_release hi
  have herase : (s.release i).2.index = s.index.erase key := by simp [Slab.release, hi]
  unfold Slab.peek
  rw [herase, Std.HashMap.getElem?_erase]
  by_cases hkey : key' = key
  · simp [hkey]
  · have hne : ∀ j, s.index[key']? = some j → j ≠ i := by
      rintro j hj rfl
      obtain ⟨v, hv⟩ := (h.index key' j).mp hj
      rw [hi, Option.some.injEq, Prod.mk.injEq] at hv
      exact hkey hv.1.symm
    cases hj : s.index[key']? with
    | none => simp [hkey, Ne.symm hkey]
    | some j => simp [hkey, Ne.symm hkey, hentry, hne j hj]

/-- What a new entry does to the look-ups. -/
lemma Extended.peek {key : String} {value : V} (hs : Extended s key value i s')
    (h : Layout s lists loose) (key' : String) :
    s'.peek key' = if key' = key then some value else s.peek key' := by
  unfold Slab.peek
  rw [hs.index, Std.HashMap.getElem?_insert]
  by_cases hkey : key' = key
  · simp [hkey, hs.entry]
  · have hne : ∀ j, s.index[key']? = some j → j ≠ i := by
      rintro j hj rfl
      obtain ⟨v, hv⟩ := (h.index key' j).mp hj
      rw [hs.free] at hv
      simp at hv
    cases hj : s.index[key']? with
    | none => simp [hkey, Ne.symm hkey]
    | some j => simp [hkey, Ne.symm hkey, hs.entry, hne j hj]

/-! ## Lengths of segments -/

lemma length_putFront (lists : Segment → List Nat) (i : Nat) (g g' : Segment) :
    (putFront lists i g g').length =
      if g' = g then (lists g).length + 1 else (lists g').length := by
  by_cases hg : g' = g
  · subst hg
    simp [putFront]
  · simp [putFront, hg]

lemma Layout.length_takeOut (h : Layout s lists loose) (hi : i ∈ lists g) (g' : Segment) :
    (takeOut lists i g').length =
      if g' = g then (lists g).length - 1 else (lists g').length := by
  by_cases hg : g' = g
  · subst hg
    simp [takeOut, List.length_erase_of_mem hi]
  · have hi' : i ∉ lists g' := fun hi' => hg (h.eq_of_mem hi' hi)
    simp [takeOut, hg, List.erase_of_not_mem hi']

/-! ## Refreshing a node -/

/-- The slots of the segments after node `i` of segment `g` was hit, when `capacity` nodes can be
guarded. -/
def refreshed (lists : Segment → List Nat) (capacity : Nat) (g : Segment) (i : Nat) :
    Segment → List Nat :=
  match g with
  | .window => putFront (takeOut lists i) i .window
  | .guarded => putFront (takeOut lists i) i .guarded
  | .probation =>
    let moved := putFront (takeOut lists i) i .guarded
    if capacity < (moved .guarded).length then
      match (moved .guarded).getLast? with
      | some demoted => putFront (takeOut moved demoted) demoted .probation
      | none => moved
    else moved

/-- A slab keeps its entries when a node is refreshed. -/
lemma Rearranged.touch (s : Slab V) (i : Nat) : Rearranged s (s.touch i) := by
  unfold Slab.touch
  cases (s.link i).segment with
  | window => exact .moveTo s i _
  | guarded => exact .moveTo s i _
  | probation =>
    dsimp only
    split
    · split
      · exact (Rearranged.moveTo s i _).trans (.moveTo _ _ _)
      · exact .moveTo s i _
    · exact .moveTo s i _

/-- **A refresh** moves the slots of the segments as `refreshed` says. -/
lemma Layout.touch (h : Layout s lists loose) (hi : i ∈ lists g) :
    Layout (s.touch i) (refreshed lists s.guarded.capacity g i) loose := by
  have hmoved := h.moveTo hi
  unfold Slab.touch refreshed
  rw [h.segment_eq hi]
  cases g with
  | window => exact hmoved .window
  | guarded => exact hmoved .guarded
  | probation =>
    have hcapacity : (s.moveTo i .guarded).guarded.capacity = s.guarded.capacity :=
      (Rearranged.moveTo s i .guarded).capacity .guarded
    have hlength := (hmoved .guarded).length .guarded
    have htail := (hmoved .guarded).tail .guarded
    dsimp only [queue] at hlength htail ⊢
    rw [hcapacity, hlength, htail]
    split
    · cases hlast : (putFront (takeOut lists i) i .guarded .guarded).getLast? with
      | none => exact hmoved .guarded
      | some demoted =>
        exact (hmoved .guarded).moveTo (List.mem_of_getLast? hlast) .probation
    · exact hmoved .guarded

/-! ## Capacities -/

/-- The segments keep to their capacities, there is room for a node in the window, and not all of
the main part can be guarded. -/
structure Fits (s : Slab V) (lists : Segment → List Nat) : Prop where
  window : (lists .window).length ≤ s.window.capacity
  guarded : (lists .guarded).length ≤ s.guarded.capacity
  main : (lists .probation).length + (lists .guarded).length ≤ s.mainCapacity
  window_pos : 0 < s.window.capacity
  guarded_lt : s.guarded.capacity < s.mainCapacity ∨ s.mainCapacity = 0

/-- Whether segments fit depends on their lengths and on the capacities of the slab. -/
lemma Fits.of_lengths {lists' : Segment → List Nat} (h : Fits s lists)
    (hcapacity : ∀ g, (s'.queue g).capacity = (s.queue g).capacity)
    (hmain : s'.mainCapacity = s.mainCapacity)
    (window : (lists' .window).length ≤ s.window.capacity)
    (guarded : (lists' .guarded).length ≤ s.guarded.capacity)
    (main : (lists' .probation).length + (lists' .guarded).length ≤ s.mainCapacity) :
    Fits s' lists' := by
  have hw : s'.window.capacity = s.window.capacity := hcapacity .window
  have hg : s'.guarded.capacity = s.guarded.capacity := hcapacity .guarded
  exact ⟨by rw [hw]; exact window, by rw [hg]; exact guarded, by rw [hmain]; exact main,
    by rw [hw]; exact h.window_pos, by rw [hg, hmain]; exact h.guarded_lt⟩

/-- A refresh keeps the segments within their capacities.

**Proof sketch.** The window and the guarded segment keep their lengths when one of their own nodes
is hit. A node that is hit on probation makes the guarded segment longer by one; when it has one
too many then, its last node goes back. -/
lemma Layout.fits_touch (h : Layout s lists loose) (hfits : Fits s lists) (hi : i ∈ lists g) :
    Fits (s.touch i) (refreshed lists s.guarded.capacity g i) := by
  have hpos : 0 < (lists g).length := List.length_pos_of_mem hi
  have hr := Rearranged.touch s i
  have ⟨hw, hg, hm, _, _⟩ := hfits
  cases g with
  | window =>
    refine hfits.of_lengths hr.capacity hr.mainCapacity ?_ ?_ ?_ <;>
      simp only [refreshed, length_putFront, h.length_takeOut hi, reduceCtorEq, if_true,
        if_false] <;> omega
  | guarded =>
    refine hfits.of_lengths hr.capacity hr.mainCapacity ?_ ?_ ?_ <;>
      simp only [refreshed, length_putFront, h.length_takeOut hi, reduceCtorEq, if_true,
        if_false] <;> omega
  | probation =>
    have hlength : ∀ g', (putFront (takeOut lists i) i .guarded g').length =
        if g' = .guarded then (lists .guarded).length + 1
        else if g' = .probation then (lists .probation).length - 1
        else (lists g').length := by
      intro g'
      rw [length_putFront, h.length_takeOut hi, h.length_takeOut hi]
      rfl
    have hmoved := h.moveTo hi .guarded
    have hlong : ∀ demoted, (putFront (takeOut lists i) i .guarded .guarded).getLast? =
        some demoted → ∀ g', (putFront (takeOut (putFront (takeOut lists i) i .guarded) demoted)
          demoted .probation g').length = (lists g').length := by
      intro demoted hlast g'
      rw [length_putFront, hmoved.length_takeOut (List.mem_of_getLast? hlast),
        hmoved.length_takeOut (List.mem_of_getLast? hlast)]
      cases g' <;> simp [hlength]
      omega
    unfold refreshed
    dsimp only
    split
    · split
      · rename_i demoted hlast
        refine hfits.of_lengths hr.capacity hr.mainCapacity ?_ ?_ ?_ <;>
          simp only [hlong demoted hlast] <;> omega
      · rename_i hlast
        simp [putFront, List.getLast?_cons] at hlast
    · rename_i hle
      simp only [hlength, if_true] at hle
      refine hfits.of_lengths hr.capacity hr.mainCapacity ?_ ?_ ?_ <;>
        simp only [hlength, reduceCtorEq, if_true, if_false] <;> omega

/-! ## A candidate for the main part -/

/-- A slab keeps its filter and its capacities when a node is released. -/
lemma release_capacity (s : Slab V) (i : Nat) :
    (∀ g, ((s.release i).2.queue g).capacity = (s.queue g).capacity) ∧
      (s.release i).2.mainCapacity = s.mainCapacity := by
  unfold Slab.release
  split
  · exact ⟨fun _ => rfl, rfl⟩
  · exact ⟨fun g => by cases g <;> rfl, rfl⟩

/-- The entry of slot `i` was dropped from `s`, and what is left is `s'`. -/
structure Dropped (s : Slab V) (i : Nat) (answer : Option (String × V) × Slab V) : Prop where
  entry : answer.1 = s.entryAt i
  peek : ∀ key value, s.entryAt i = some (key, value) →
    ∀ key', answer.2.peek key' = if key' = key then none else s.peek key'
  capacity : ∀ g, (answer.2.queue g).capacity = (s.queue g).capacity
  mainCapacity : answer.2.mainCapacity = s.mainCapacity

lemma Layout.dropped_release (h : Layout s lists (i :: loose)) : Dropped s i (s.release i) where
  entry := by
    unfold Slab.release
    split <;> simp_all
  peek key value hi := h.peek_release hi
  capacity := (release_capacity s i).1
  mainCapacity := (release_capacity s i).2

lemma Dropped.slabCapacity {answer : Option (String × V) × Slab V} (h : Dropped s i answer) :
    answer.2.capacity = s.capacity := by
  have hw : answer.2.window.capacity = s.window.capacity := h.capacity .window
  rw [Slab.capacity, Slab.capacity, hw, h.mainCapacity]

/-- Dropping the same entry after a rearrangement. -/
lemma Dropped.of_rearranged {answer : Option (String × V) × Slab V} (h : Dropped s' i answer)
    (hs : Rearranged s s') : Dropped s i answer where
  entry := by rw [h.entry, hs.entryAt]
  peek key value hi key' := by
    rw [h.peek key value (by rw [hs.entryAt, hi]), hs.peek]
  capacity g := by rw [h.capacity, hs.capacity]
  mainCapacity := by rw [h.mainCapacity, hs.mainCapacity]

/-- The same drop with a rearrangement after it. -/
lemma Dropped.rearrange {answer : Option (String × V) × Slab V} (h : Dropped s i answer)
    (hs : Rearranged answer.2 s') : Dropped s i (answer.1, s') where
  entry := h.entry
  peek key value hi key' := by rw [hs.peek, h.peek key value hi]
  capacity g := by rw [hs.capacity, h.capacity]
  mainCapacity := by rw [hs.mainCapacity, h.mainCapacity]

/-- A candidate enters probation when the main part has room. -/
lemma contend_of_room (h : Layout s lists (i :: loose))
    (hroom : (lists .probation).length + (lists .guarded).length < s.mainCapacity) :
    s.contend i = (none, s.pushFront i .probation) := by
  have hp : s.probation.length = _ := h.length .probation
  have hg : s.guarded.length = _ := h.length .guarded
  unfold contend
  rw [if_pos (by omega)]

/-- The node that leaves a main part that is full is the least recent one on probation.

**Proof sketch.** Not all of a full main part is guarded, so that somebody is on probation. -/
lemma Layout.victim?_eq (h : Layout s lists loose) (hfits : Fits s lists)
    (hfull : ¬ (lists .probation).length + (lists .guarded).length < s.mainCapacity) :
    s.victim? = (lists .probation).getLast? := by
  have hp : s.probation.tail = _ := h.tail .probation
  have hg : s.guarded.tail = _ := h.tail .guarded
  have := hfits.guarded
  have := hfits.guarded_lt
  have := hfits.main
  rw [victim?, hp, hg]
  cases hlast : (lists .probation).getLast? with
  | some victim => rfl
  | none =>
    have hnil : lists .probation = [] := List.getLast?_eq_none_iff.mp hlast
    have hguarded : lists .guarded = [] := by
      rw [hnil, List.length_nil] at hfull
      rw [← List.length_eq_zero_iff]
      omega
    simp [hguarded]

/-- **A candidate before a full main part** is dropped, or the least recent node on probation is
dropped and the candidate takes its place.

**Proof sketch.** When the candidate loses, or there is nobody to compete with, it is released.
When it wins, the victim is taken out and released while the candidate is still loose, and then
the candidate is put in. -/
lemma Layout.contend_of_full (h : Layout s lists (i :: loose)) (hfits : Fits s lists)
    (hfull : ¬ (lists .probation).length + (lists .guarded).length < s.mainCapacity) :
    (Dropped s i (s.contend i) ∧ Layout (s.contend i).2 lists loose) ∨
      ∃ victim, (lists .probation).getLast? = some victim ∧ Dropped s victim (s.contend i) ∧
        Layout (s.contend i).2 (putFront (takeOut lists victim) i .probation) loose := by
  have hp : s.probation.length = _ := h.length .probation
  have hg : s.guarded.length = _ := h.length .guarded
  obtain ⟨⟨key, value⟩, hi⟩ :=
    Option.isSome_iff_exists.mp ((h.occupied i).mpr (.inl List.mem_cons_self))
  unfold contend
  rw [if_neg (by omega), h.victim?_eq hfits hfull]
  cases hlast : (lists .probation).getLast? with
  | none => exact .inl ⟨h.dropped_release, h.release hi⟩
  | some victim =>
    dsimp only
    split
    · right
      have hmem := List.mem_of_getLast? hlast
      have hunlinked := h.unlink hmem
      obtain ⟨⟨key', value'⟩, hv⟩ :=
        Option.isSome_iff_exists.mp ((h.occupied victim).mpr (.inr ⟨_, hmem⟩))
      have hreleased := hunlinked.release (by rw [(Rearranged.unlink s victim).entryAt, hv])
      refine ⟨victim, rfl, ?_, hreleased.pushFront .probation⟩
      exact (hunlinked.dropped_release.of_rearranged (.unlink s victim)).rearrange
        (.pushFront _ i .probation)
    · exact .inl ⟨h.dropped_release, h.release hi⟩

/-! ## Sound slabs -/

/-- A slab whose slots are laid out in segments that keep to their capacities. -/
def Sound (s : Slab V) : Prop := ∃ lists, Layout s lists [] ∧ Fits s lists

/-- An empty slab uses no slot. -/
lemma Layout.empty (hash : String → UInt64) (size samples : Nat) :
    Layout (Slab.empty hash size samples : Slab V) (fun _ => []) [] := by
  constructor <;> simp [Slab.empty, entryAt, Chain, total]
  all_goals intro g; cases g <;> rfl

/-- An empty slab is sound. -/
lemma sound_empty (hash : String → UInt64) (size samples : Nat) :
    Sound (empty hash size samples : Slab V) := by
  refine ⟨_, .empty hash size samples, by simp, by simp, by simp, ?_, ?_⟩
  · simp only [empty, windowShare]
    omega
  · simp only [empty]
    omega

/-- The filter plays no part in a layout. -/
lemma Layout.withFilter (h : Layout s lists loose) (f : Frequency.Filter) :
    Layout ({ s with filter := f } : Slab V) lists loose := by
  have hqueue : ∀ g, ({ s with filter := f } : Slab V).queue g = s.queue g :=
    fun g => by cases g <;> rfl
  exact ⟨h.chain, fun g => by rw [hqueue, h.head], fun g => by rw [hqueue, h.tail],
    fun g => by rw [hqueue, h.length], h.nodup, h.apart, h.loose_nodup, h.links, h.occupied,
    h.free_nodup, h.mem_free, h.index, h.size, h.hash⟩

/-- The filter plays no part in whether segments fit. -/
lemma Fits.withFilter (h : Fits s lists) (f : Frequency.Filter) :
    Fits ({ s with filter := f } : Slab V) lists :=
  ⟨h.window, h.guarded, h.main, h.window_pos, h.guarded_lt⟩

namespace Sound

/-- The index leads to a slot of some segment. -/
lemma exists_mem (h : Layout s lists []) {key : String} (hi : s.index[key]? = some i) :
    ∃ g value, i ∈ lists g ∧ s.entryAt i = some (key, value) := by
  obtain ⟨value, he⟩ := (h.index key i).mp hi
  have hmem := (h.occupied i).mp (by simp [he])
  simp only [List.not_mem_nil, false_or] at hmem
  obtain ⟨g, hg⟩ := hmem
  exact ⟨g, value, hg, he⟩

/-- A slab holds no more entries than it may. -/
lemma size_le (h : Sound s) : s.size ≤ s.capacity := by
  obtain ⟨lists, hlayout, hfits⟩ := h
  have := hlayout.size
  have := hfits.window
  have := hfits.main
  simp only [Slab.size, Slab.capacity, total, List.length_nil] at *
  omega

/-- A key that is not in the index is not found. -/
lemma peek_eq_none_iff (h : Sound s) {key : String} :
    s.peek key = none ↔ s.index[key]? = none := by
  obtain ⟨lists, hlayout, -⟩ := h
  constructor
  · intro hpeek
    by_contra hne
    obtain ⟨i, hi⟩ := Option.ne_none_iff_exists'.mp hne
    obtain ⟨value, he⟩ := (hlayout.index key i).mp hi
    rw [hlayout.peek_of_entry he] at hpeek
    simp at hpeek
  · intro hnone
    simp [Slab.peek, hnone]

/-- The membership test agrees with the look-up. -/
lemma contains_eq (h : Sound s) (key : String) : s.contains key = (s.peek key).isSome := by
  rw [Slab.contains, Std.HashMap.contains_eq_isSome_getElem?]
  have hnone : s.peek key = none ↔ s.index[key]? = none := h.peek_eq_none_iff
  cases hp : s.peek key <;> cases hi : s.index[key]? <;> simp_all

/-! ## Reading and removing -/

/-- Recording an access leaves a slab sound. -/
lemma record (h : Sound s) (key : String) : Sound (s.record key) := by
  obtain ⟨lists, hlayout, hfits⟩ := h
  exact ⟨lists, hlayout.withFilter _, hfits.withFilter _⟩

/-- A refresh keeps a slab sound, and its entries in their slots. -/
lemma touch (h : Sound s) {key : String} (hi : s.index[key]? = some i) :
    Sound (s.touch i) ∧ Rearranged s (s.touch i) := by
  obtain ⟨lists, hlayout, hfits⟩ := h
  obtain ⟨g, -, hmem, -⟩ := exists_mem hlayout hi
  exact ⟨⟨_, hlayout.touch hmem, hlayout.fits_touch hfits hmem⟩, .touch s i⟩

/-- **Reading** a key answers as a look-up does and changes no entry. -/
lemma get (h : Sound s) (key : String) :
    Sound (s.get key).2 ∧ (s.get key).1 = s.peek key ∧ (s.get key).2.size = s.size ∧
      (s.get key).2.capacity = s.capacity ∧
      ∀ key', (s.get key).2.peek key' = s.peek key' := by
  have hrecord := h.record key
  simp only [Slab.get, index_record]
  cases hi : s.index[key]? with
  | none =>
    refine ⟨hrecord, ?_, size_record s key, capacity_record s key, peek_record s key⟩
    exact (h.peek_eq_none_iff.mpr hi).symm
  | some i =>
    obtain ⟨hsound, hr⟩ := hrecord.touch (by rw [index_record, hi])
    dsimp only
    refine ⟨hsound, ?_, hr.size.trans (size_record s key),
      hr.slabCapacity.trans (capacity_record s key), fun key' => ?_⟩
    · rw [hr.entryAt, entryAt_record, Slab.peek, hi, Option.bind_some]
    · rw [hr.peek, peek_record]

/-- **Removing** a key answers as a look-up does and takes away this key only. -/
lemma remove (h : Sound s) (key : String) :
    Sound (s.remove key).2 ∧ (s.remove key).1 = s.peek key ∧
      (s.remove key).2.size = s.size - (if s.peek key = none then 0 else 1) ∧
      (s.remove key).2.capacity = s.capacity ∧
      ∀ key', (s.remove key).2.peek key' = if key' = key then none else s.peek key' := by
  unfold Slab.remove
  cases hi : s.index[key]? with
  | none =>
    have hnone := h.peek_eq_none_iff.mpr hi
    refine ⟨h, hnone.symm, by simp [hnone], rfl, fun key' => ?_⟩
    by_cases hkey : key' = key
    · simp [hkey, hnone]
    · simp [hkey]
  | some i =>
    obtain ⟨lists, hlayout, hfits⟩ := h
    obtain ⟨g, value, hmem, he⟩ := exists_mem hlayout hi
    have hpeek := hlayout.peek_of_entry he
    have hunlinked := hlayout.unlink hmem
    have hentry : (s.unlink i).entryAt i = some (key, value) := by
      rw [(Rearranged.unlink s i).entryAt, he]
    have hdropped := hunlinked.dropped_release.of_rearranged (.unlink s i)
    have hreleased := hunlinked.release hentry
    have hlength := hlayout.length_takeOut hmem
    have hle : ∀ g', (takeOut lists i g').length ≤ (lists g').length := fun g' =>
      (List.erase_sublist).length_le
    have hsize := hreleased.size
    have hsize' := hlayout.size
    have hpos : 0 < (lists g).length := List.length_pos_of_mem hmem
    refine ⟨⟨_, hreleased, ?_⟩, ?_, ?_, ?_, hdropped.peek key value he⟩
    · exact hfits.of_lengths hdropped.capacity hdropped.mainCapacity
        (Nat.le_trans (hle .window) hfits.window) (Nat.le_trans (hle .guarded) hfits.guarded)
        (Nat.le_trans (Nat.add_le_add (hle .probation) (hle .guarded)) hfits.main)
    · simp [hdropped.entry, he, hpeek]
    · simp only [Slab.size, hpeek, hsize, hsize', total, hlength, reduceCtorEq, if_false]
      cases g <;> simp <;> omega
    · have hw := hdropped.capacity .window
      simp only [queue] at hw
      simp only [Slab.capacity, hdropped.mainCapacity, hw]

/-! ## Inserting -/

end Sound

/-- The slab `s'` is `s` with `value` under `key`, and without the entry `dropped`, if there is
one. -/
structure Inserted (s : Slab V) (key : String) (value : V) (dropped : Option (String × V))
    (s' : Slab V) : Prop where
  sound : Sound s'
  capacity : s'.capacity = s.capacity
  size : s'.size + (if dropped = none then 0 else 1) =
    s.size + (if s.peek key = none then 1 else 0)
  peek : ∀ x, s'.peek x =
    if x = key then some value else if dropped.any (·.1 == x) then none else s.peek x
  /-- What is dropped is another entry of `s`. -/
  held : ∀ e ∈ dropped, e.1 ≠ key ∧ s.peek e.1 = some e.2
  /-- Something is dropped when a new key comes into a full slab, and only then. -/
  full : dropped ≠ none ↔ s.peek key = none ∧ s.size = s.capacity

/-- Giving another value to the key of a slot changes nothing in the layout. -/
lemma Layout.replace (h : Layout s lists loose) {key : String} {old : V}
    (he : s.entryAt i = some (key, old)) (value : V) :
    Layout ({ s with slots := s.slots.set! i (some (key, value)) } : Slab V) lists loose := by
  have hentry := fun j => entryAt_setSlot s i j (some (key, value)) (lt_of_entry he)
  have hqueue : ∀ g, ({ s with slots := s.slots.set! i (some (key, value)) } : Slab V).queue g =
      s.queue g := fun g => by cases g <;> rfl
  refine ⟨h.chain, fun g => by rw [hqueue, h.head], fun g => by rw [hqueue, h.tail],
    fun g => by rw [hqueue, h.length], h.nodup, h.apart, h.loose_nodup, by simp [h.links],
    fun j => ?_, h.free_nodup, fun j => ?_, fun key' j => ?_, h.size, fun j key' v hj => ?_⟩
  · rw [hentry, ← h.occupied]
    by_cases hj : j = i
    · simp [hj, he]
    · simp [hj]
  · rw [hentry, Array.set!_eq_setIfInBounds, Array.size_setIfInBounds, h.mem_free]
    by_cases hj : j = i
    · simp [hj, he]
    · simp [hj]
  · rw [hentry, h.index]
    by_cases hj : j = i
    · simp [hj, he]
    · simp [hj]
  · rw [hentry] at hj
    by_cases hji : j = i
    · rw [if_pos hji, Option.some.injEq, Prod.mk.injEq] at hj
      rw [hji, ← hj.1]
      exact h.hash i key old he
    · rw [if_neg hji] at hj
      exact h.hash j key' v hj

namespace Sound

/-- Giving another value to the key of a slot. -/
lemma replace (h : Sound s) {key : String} {old : V} (he : s.entryAt i = some (key, old))
    (value : V) :
    Sound ({ s with slots := s.slots.set! i (some (key, value)) } : Slab V) ∧
      ∀ key', ({ s with slots := s.slots.set! i (some (key, value)) } : Slab V).peek key' =
        if key' = key then some value else s.peek key' := by
  obtain ⟨lists, hlayout, hfits⟩ := h
  have hentry := fun j => entryAt_setSlot s i j (some (key, value)) (Layout.lt_of_entry he)
  have hindex : s.index[key]? = some i := (hlayout.index key i).mpr ⟨old, he⟩
  refine ⟨⟨lists, hlayout.replace he value,
    ⟨hfits.window, hfits.guarded, hfits.main, hfits.window_pos, hfits.guarded_lt⟩⟩,
    fun key' => ?_⟩
  simp only [Slab.peek, hentry]
  by_cases hkey : key' = key
  · simp [hkey, hindex]
  · have hne : ∀ j, s.index[key']? = some j → j ≠ i := by
      rintro j hj rfl
      obtain ⟨v, hv⟩ := (hlayout.index key' j).mp hj
      rw [he, Option.some.injEq, Prod.mk.injEq] at hv
      exact hkey hv.1.symm
    cases hj : s.index[key']? with
    | none => simp [hkey]
    | some j => simp [hkey, hne j hj]

/-- Inserting a key that is present changes its value and drops nothing. -/
lemma insert_of_present (h : Sound s) {key : String} (hkey : s.peek key ≠ none) (value : V) :
    Inserted s key value (s.insert key value).1 (s.insert key value).2 := by
  have hpresent := hkey
  rw [ne_eq, h.peek_eq_none_iff] at hkey
  obtain ⟨i, hi⟩ := Option.ne_none_iff_exists'.mp hkey
  have ⟨lists, hlayout, _⟩ := h
  obtain ⟨-, old, -, he⟩ := exists_mem hlayout hi
  obtain ⟨hreplaced, hpeek⟩ := h.replace he value
  obtain ⟨hsound, hr⟩ := hreplaced.touch hi
  simp only [Slab.insert, hi]
  refine ⟨hsound, hr.slabCapacity, ?_, fun key' => ?_, by simp, by simp [hpresent]⟩
  · rw [if_pos rfl, if_neg hpresent]
    exact hr.size
  · rw [hr.peek, hpeek]
    rfl

end Sound

/-- The slab after a new key came into the window, before the window's overflow competes. -/
def entered (s : Slab V) (key : String) (value : V) : Slab V :=
  let (i, s) := (s.record key).allocate key value (s.hash key)
  s.pushFront i .window

lemma insertNew_eq (s : Slab V) (key : String) (value : V) :
    s.insertNew key value =
      if (s.entered key value).window.length ≤ (s.entered key value).window.capacity then
        (none, s.entered key value)
      else
        match (s.entered key value).window.tail with
        | none => (none, s.entered key value)
        | some candidate => ((s.entered key value).unlink candidate).contend candidate := by
  simp only [insertNew, entered, record]
  rfl

/-- The slab `s'` has a new key, in slot `i`, at the front of the window, and is laid out as `s`
otherwise. -/
structure Entered (s : Slab V) (lists : Segment → List Nat) (key : String) (value : V) (i : Nat)
    (s' : Slab V) : Prop where
  layout : Layout s' (putFront lists i .window) []
  fresh : ∀ g, i ∉ lists g
  entry : ∀ j, s'.entryAt j = if j = i then some (key, value) else s.entryAt j
  capacity : ∀ g, (s'.queue g).capacity = (s.queue g).capacity
  mainCapacity : s'.mainCapacity = s.mainCapacity
  peek : ∀ key', s'.peek key' = if key' = key then some value else s.peek key'

lemma Entered.window_length {key : String} {value : V} (he : Entered s lists key value i s') :
    s'.window.length = (lists .window).length + 1 :=
  (he.layout.length .window).trans (by simp [length_putFront])

lemma Entered.slabCapacity {key : String} {value : V} (he : Entered s lists key value i s') :
    s'.capacity = s.capacity := by
  have hw : s'.window.capacity = s.window.capacity := he.capacity .window
  rw [Slab.capacity, Slab.capacity, hw, he.mainCapacity]

/-- A new key comes in at the front of the window.

**Proof sketch.** Recording the access changes the filter only; the allocation makes the new node
loose, and it is put in. -/
lemma Layout.entered (h : Layout s lists []) {key : String} (hnew : s.index[key]? = none)
    (value : V) : ∃ i, Entered s lists key value i (s.entered key value) := by
  have hrecord : Layout (s.record key) lists [] := h.withFilter _
  have hextended := hrecord.extended key value
  have hloose := hrecord.extend (by rw [index_record, hnew]) hextended
  have hr := Rearranged.pushFront ((s.record key).allocate key value ((s.record key).hash key)).2
    ((s.record key).allocate key value ((s.record key).hash key)).1 .window
  refine ⟨((s.record key).allocate key value ((s.record key).hash key)).1,
    hloose.pushFront .window, hloose.apart _ List.mem_cons_self, fun j => ?_, fun g => ?_, ?_,
    fun key' => ?_⟩
  · exact (hr.entryAt _).trans (by rw [hextended.entry, entryAt_record])
  · refine (hr.capacity g).trans ?_
    rw [hextended.queue]
    cases g <;> simp only [queue, record]
  · exact hr.mainCapacity.trans (hextended.mainCapacity.trans (by simp only [record]))
  · exact (hr.peek key').trans (by rw [hextended.peek hrecord, peek_record])

/-- A new key whose window has room stays there. -/
lemma Layout.insertNew_of_room (h : Layout s lists []) (hfits : Fits s lists) {key : String}
    (hnew : s.index[key]? = none) (value : V)
    (hroom : (lists .window).length < s.window.capacity) :
    s.insertNew key value = (none, s.entered key value) ∧ Sound (s.entered key value) := by
  obtain ⟨i, he⟩ := h.entered hnew value
  have hlength := he.window_length
  have hwindow : (s.entered key value).window.capacity = s.window.capacity := he.capacity .window
  have hlists := length_putFront lists i .window
  have := hfits.guarded
  have := hfits.main
  refine ⟨?_, _, he.layout, ?_⟩
  · rw [insertNew_eq, hlength, hwindow, if_pos (by omega)]
  · refine hfits.of_lengths he.capacity he.mainCapacity ?_ ?_ ?_ <;>
      simp only [hlists, reduceCtorEq, if_true, if_false] <;> omega

/-- A new key whose window was full makes the window's least recent node a candidate.

**Proof sketch.** The window had a node already, since its capacity is positive. So its last node
is not the new one, and taking it out leaves every segment as long as it was. -/
lemma Layout.insertNew_of_full (h : Layout s lists []) (hfits : Fits s lists) {key : String}
    (hnew : s.index[key]? = none) (value : V)
    (hfull : ¬ (lists .window).length < s.window.capacity) :
    ∃ c lists',
      s.insertNew key value = ((s.entered key value).unlink c).contend c ∧
        (lists .window).getLast? = some c ∧
        Layout ((s.entered key value).unlink c) lists' [c] ∧
        Fits ((s.entered key value).unlink c) lists' ∧
        (∀ g, (lists' g).length = (lists g).length) ∧
        ∀ g, g ≠ .window → lists' g = lists g := by
  obtain ⟨i, he⟩ := h.entered hnew value
  have hlength := he.window_length
  have hwindow : (s.entered key value).window.capacity = s.window.capacity := he.capacity .window
  have := hfits.window_pos
  have hne : lists .window ≠ [] := by
    intro hnil
    rw [hnil] at hfull
    simp at hfull
    omega
  obtain ⟨c, hc⟩ := Option.ne_none_iff_exists'.mp (mt List.getLast?_eq_none_iff.mp hne)
  have hcw : c ∈ lists .window := List.mem_of_getLast? hc
  have hci : c ≠ i := fun hci => he.fresh .window (hci ▸ hcw)
  have hcmem : c ∈ putFront lists i .window .window := by
    simp [putFront, hcw]
  have htail : (s.entered key value).window.tail = some c := by
    have := he.layout.tail .window
    simp only [queue, putFront, Function.update_self, List.getLast?_cons, hc] at this
    simpa using this
  have hlength' : ∀ g, (takeOut (putFront lists i .window) c g).length = (lists g).length := by
    intro g
    rw [he.layout.length_takeOut hcmem]
    cases g <;> simp [length_putFront]
  have hr := Rearranged.unlink (s.entered key value) c
  refine ⟨c, takeOut (putFront lists i .window) c, ?_, hc, he.layout.unlink hcmem, ?_, hlength',
    fun g hg => ?_⟩
  · rw [insertNew_eq, hlength, hwindow, if_neg (by omega), htail]
  · refine hfits.of_lengths (fun g => (hr.capacity g).trans (he.capacity g))
      (hr.mainCapacity.trans he.mainCapacity) ?_ ?_ ?_ <;> rw [hlength']
    · exact hfits.window
    · exact hfits.guarded
    · rw [hlength']
      exact hfits.main
  · have hcg : c ∉ lists g := fun hcg => hg (h.eq_of_mem hcg hcw)
    simp [takeOut, putFront, hg, List.erase_of_not_mem hcg]

namespace Sound

/-- The number of entries is the number of slots in the segments. -/
lemma size_eq_total (h : Layout s lists []) : s.size = total lists := by
  rw [Slab.size, h.size, List.length_nil, Nat.add_zero]

/-- Inserting a new key while there is room drops nothing.

**Proof sketch.** When the window is not full it takes the key. When it is, the main part is not,
and the window's least recent node goes on probation. -/
lemma insert_of_room (h : Sound s) {key : String} (hkey : s.peek key = none)
    (hroom : s.size < s.capacity) (value : V) :
    Inserted s key value (s.insert key value).1 (s.insert key value).2 := by
  have hnew := h.peek_eq_none_iff.mp hkey
  obtain ⟨lists, hlayout, hfits⟩ := h
  obtain ⟨i, he⟩ := hlayout.entered hnew value
  simp only [Slab.insert, hnew]
  by_cases hwindow : (lists .window).length < s.window.capacity
  · obtain ⟨heq, hsound⟩ := hlayout.insertNew_of_room hfits hnew value hwindow
    rw [heq]
    refine ⟨hsound, he.slabCapacity, ?_, he.peek, by simp, by simp [Nat.ne_of_lt hroom]⟩
    rw [if_pos rfl, if_pos hkey, size_eq_total he.layout, total_putFront, size_eq_total hlayout]
  · obtain ⟨c, lists', heq, -, hloose, hfits', hlength, -⟩ :=
      hlayout.insertNew_of_full hfits hnew value hwindow
    have hr := Rearranged.unlink (s.entered key value) c
    have hr' := Rearranged.pushFront ((s.entered key value).unlink c) c .probation
    have hmain : (lists' .probation).length + (lists' .guarded).length <
        ((s.entered key value).unlink c).mainCapacity := by
      have := hfits.window
      have hmain' := hr.mainCapacity.trans he.mainCapacity
      simp only [hlength, hmain', size_eq_total hlayout, total, Slab.capacity] at hroom ⊢
      omega
    rw [heq, contend_of_room hloose hmain]
    refine ⟨⟨_, hloose.pushFront .probation, ?_⟩, ?_, ?_, fun x => ?_, by simp,
      by simp [Nat.ne_of_lt hroom]⟩
    · have hlists := length_putFront lists' c .probation
      refine hfits'.of_lengths hr'.capacity hr'.mainCapacity ?_ ?_ ?_ <;>
        simp only [hlists, reduceCtorEq, if_true, if_false]
      · exact hfits'.window
      · exact hfits'.guarded
      · omega
    · rw [hr'.slabCapacity, hr.slabCapacity, he.slabCapacity]
    · rw [if_pos rfl, if_pos hkey, size_eq_total (hloose.pushFront .probation), total_putFront,
        size_eq_total hlayout]
      simp only [total, hlength]
    · rw [hr'.peek, hr.peek, he.peek]
      rfl

/-- Inserting a new key into a full slab drops one entry, and never the new one.

**Proof sketch.** All segments are full. The candidate is the window's least recent node, which was
there before. What is dropped is the candidate or a node on probation, and in either case a node
that is not the new one. -/
lemma insert_of_full (h : Sound s) {key : String} (hkey : s.peek key = none)
    (hfull : s.size = s.capacity) (value : V) :
    Inserted s key value (s.insert key value).1 (s.insert key value).2 := by
  have hnew := h.peek_eq_none_iff.mp hkey
  obtain ⟨lists, hlayout, hfits⟩ := h
  obtain ⟨i, he⟩ := hlayout.entered hnew value
  have hwindow := hfits.window
  have hmain := hfits.main
  have hsize := size_eq_total hlayout
  rw [hfull, Slab.capacity, total] at hsize
  simp only [Slab.insert, hnew]
  obtain ⟨c, lists', heq, hc, hloose, hfits', hlength, hlists⟩ :=
    hlayout.insertNew_of_full hfits hnew value (by omega)
  have hr := Rearranged.unlink (s.entered key value) c
  have hmain' := hr.mainCapacity.trans he.mainCapacity
  rw [heq]
  -- it does not matter which of the old nodes is dropped
  have hdone : ∀ g d lists'', d ∈ lists g →
      Dropped ((s.entered key value).unlink c) d
        (((s.entered key value).unlink c).contend c) →
      Layout (((s.entered key value).unlink c).contend c).2 lists'' [] →
      (∀ g, (lists'' g).length = (lists g).length) →
      Inserted s key value (((s.entered key value).unlink c).contend c).1
        (((s.entered key value).unlink c).contend c).2 := by
    intro g d lists'' hd hdropped hlayout' hlength''
    have hdi : d ≠ i := fun hdi => he.fresh g (hdi ▸ hd)
    obtain ⟨⟨key', value'⟩, hentry⟩ :=
      Option.isSome_iff_exists.mp ((hlayout.occupied d).mpr (.inr ⟨g, hd⟩))
    have hpeek := hlayout.peek_of_entry hentry
    have hne : key' ≠ key := by
      rintro rfl
      rw [hkey] at hpeek
      simp at hpeek
    have hentry' : ((s.entered key value).unlink c).entryAt d = some (key', value') := by
      rw [hr.entryAt, he.entry, if_neg hdi, hentry]
    rw [hdropped.entry, hentry']
    refine ⟨⟨lists'', hlayout', ?_⟩, ?_, ?_, fun x => ?_, ?_, by simp [hkey, hfull]⟩
    · refine hfits.of_lengths
        (fun g => (hdropped.capacity g).trans ((hr.capacity g).trans (he.capacity g)))
        (hdropped.mainCapacity.trans hmain') ?_ ?_ ?_ <;> simp only [hlength'']
      · exact hwindow
      · exact hfits.guarded
      · exact hmain
    · rw [hdropped.slabCapacity, hr.slabCapacity, he.slabCapacity]
    · rw [if_neg (by simp), if_pos hkey, size_eq_total hlayout', size_eq_total hlayout, total,
        total]
      simp only [hlength'']
    · rw [hdropped.peek key' value' hentry', hr.peek, he.peek]
      by_cases hx : x = key'
      · simp [hx, hne]
      · simp [hx, Ne.symm hx]
    · rintro e ⟨⟩
      exact ⟨hne, hpeek⟩
  have hfull' : ¬ (lists' .probation).length + (lists' .guarded).length <
      ((s.entered key value).unlink c).mainCapacity := by
    rw [hlength, hlength, hmain']
    omega
  rcases hloose.contend_of_full hfits' hfull' with
    ⟨hdropped, hlayout'⟩ | ⟨victim, hvictim, hdropped, hlayout'⟩
  · exact hdone .window c lists' (List.mem_of_getLast? hc) hdropped hlayout' hlength
  · rw [hlists .probation (by simp)] at hvictim
    have hmem := List.mem_of_getLast? hvictim
    have hmem' : victim ∈ lists' .probation := by rwa [hlists .probation (by simp)]
    have hpos : 0 < (lists .probation).length := List.length_pos_of_mem hmem
    refine hdone .probation victim _ hmem hdropped hlayout' fun g => ?_
    rw [length_putFront, hloose.length_takeOut hmem', hloose.length_takeOut hmem']
    cases g <;> simp [hlength]
    omega

/-- **Inserting** puts the value under the key and drops an entry exactly when a new key comes into
a full slab. -/
lemma insert (h : Sound s) (key : String) (value : V) :
    Inserted s key value (s.insert key value).1 (s.insert key value).2 := by
  by_cases hkey : s.peek key = none
  · rcases Nat.lt_or_eq_of_le h.size_le with hroom | hfull
    · exact h.insert_of_room hkey hroom value
    · exact h.insert_of_full hkey hfull value
  · exact h.insert_of_present hkey value

end Sound

end Slab

end LayeredCache.Eviction
