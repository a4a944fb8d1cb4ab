import LayeredCache.Proofs.Eviction.Checked

/-!
# How a slab represents its segments

Between two calls the tables of a slab are in order. From its head along the next pointers and
from its tail along the previous pointers, each segment is a list that visits the same slots in
opposite orders. The segments share no slot and cover the slots that hold an entry; the other slots
are the free ones. The slab grows only when no slot is free, and therefore has at most one slot
more than it may hold entries. A call that finds the tables in this order never leaves them.

## Main definitions

* `Follows` — the slots that are visited from a pointer until the pointers end.
* `Slab.Represented` — the tables of a slab between two calls.
* `Slab.Proper` — the invariant: a sound slab with few slots and a sized filter.

## Main results

* `Slab.Layout.slots_size` — every slot is in a segment, loose or free.
* `Slab.Proper.call` — every call keeps the invariant.
* `Slab.calls_represented` — after every sequence of calls the tables are in order, and no call
  accessed anything outside them.
-/

set_option autoImplicit false

namespace LayeredCache.Eviction

open LayeredCache.Frequency

/-! ## Following pointers -/

/-- From a pointer, `step` visits the slots `xs` in this order and ends. -/
inductive Follows (step : Nat → Option Nat) : Option Nat → List Nat → Prop
  | nil : Follows step none []
  | cons {i : Nat} {xs : List Nat} (rest : Follows step (step i) xs) :
    Follows step (some i) (i :: xs)

section Follows

variable {links : Nat → Link} {g : Segment} {p n : Option Nat} {xs : List Nat}

/-- The next pointers of a chain visit its slots. -/
lemma Chain.forward (h : Chain links g p xs none) :
    Follows (fun i => (links i).next) xs.head? xs := by
  induction xs generalizing p with
  | nil => exact .nil
  | cons i xs ih =>
    obtain ⟨-, -, hnext, hrest⟩ := h
    refine .cons ?_
    rw [hnext, Option.or_none]
    exact ih hrest

/-- The previous pointers of a chain visit its slots in the opposite order.

**Proof sketch.** Induction on the chain from its last slot: what precedes it is a chain that ends
at it. -/
lemma Chain.backward (h : Chain links g none xs n) :
    Follows (fun i => (links i).prev) xs.getLast? xs.reverse := by
  induction xs using List.reverseRecOn generalizing n with
  | nil => exact .nil
  | append_singleton xs i ih =>
    obtain ⟨hxs, -, hprev, -⟩ := chain_append.mp h
    rw [List.getLast?_concat, List.reverse_append]
    refine .cons ?_
    rw [hprev, Option.or_none]
    exact ih hxs

end Follows

namespace Slab

variable {V : Type} {s s' : Slab V} {lists : Segment → List Nat} {loose : List Nat} {i : Nat}

/-! ## The number of slots -/

/-- No slot is visited twice. -/
lemma Layout.lists_nodup (h : Layout s lists loose) :
    (lists .window ++ lists .probation ++ lists .guarded).Nodup := by
  simp only [List.nodup_append, List.mem_append]
  refine ⟨⟨h.nodup _, h.nodup _, ?_⟩, h.nodup _, ?_⟩
  · rintro j hj _ hj' rfl
    cases h.eq_of_mem hj hj'
  · rintro j (hj | hj) _ hj' rfl
    · cases h.eq_of_mem hj hj'
    · cases h.eq_of_mem hj hj'

/-- The slots of all segments. -/
lemma mem_lists_iff (lists : Segment → List Nat) (j : Nat) :
    j ∈ lists .window ++ lists .probation ++ lists .guarded ↔ ∃ g, j ∈ lists g := by
  simp only [List.mem_append]
  constructor
  · rintro ((hg | hg) | hg) <;> exact ⟨_, hg⟩
  · rintro ⟨g, hg⟩
    cases g with
    | window => exact .inl (.inl hg)
    | probation => exact .inl (.inr hg)
    | guarded => exact .inr hg

/-- **Every slot** is in a segment, loose or free, and in one of these only.

**Proof sketch.** The segments, the loose slots and the free slots together are the numbers below
the number of slots, each once. -/
lemma Layout.slots_size (h : Layout s lists loose) :
    s.slots.size = total lists + loose.length + s.free.length := by
  have hfree : ∀ j ∈ s.free, ¬ (j ∈ loose ∨ ∃ g, j ∈ lists g) := by
    intro j hj hused
    have hnone := ((h.mem_free j).mp hj).2
    rw [← h.occupied, hnone] at hused
    cases hused
  have hnodup : (lists .window ++ lists .probation ++ lists .guarded ++ loose ++ s.free).Nodup := by
    refine List.nodup_append.mpr ⟨List.nodup_append.mpr ⟨h.lists_nodup, h.loose_nodup, ?_⟩,
      h.free_nodup, ?_⟩
    · rintro j hj _ hj' rfl
      obtain ⟨g, hg⟩ := (mem_lists_iff lists j).mp hj
      exact h.apart j hj' g hg
    · rintro j hj _ hj' rfl
      refine hfree j hj' ?_
      rcases List.mem_append.mp hj with hj | hj
      · exact .inr ((mem_lists_iff lists j).mp hj)
      · exact .inl hj
  have hmem : ∀ j, j ∈ lists .window ++ lists .probation ++ lists .guarded ++ loose ++ s.free ↔
      j ∈ List.range s.slots.size := by
    intro j
    rw [List.mem_append, List.mem_append, mem_lists_iff, or_comm (a := ∃ g, j ∈ lists g),
      ← h.occupied, h.mem_free, List.mem_range]
    cases he : s.entryAt j with
    | none => simp
    | some e => simpa using Layout.lt_of_entry he
  have hperm := (List.perm_ext_iff_of_nodup hnodup List.nodup_range).mpr hmem
  have hlength := hperm.length_eq
  simp only [List.length_append, List.length_range] at hlength
  rw [total, hlength]

/-! ## What an operation leaves of the tables -/

/-- The slab `s'` has as many slots as `s`, and its filter. -/
structure SameTables (s s' : Slab V) : Prop where
  slots : s'.slots.size = s.slots.size
  filter : s'.filter = s.filter

namespace SameTables

variable {s'' : Slab V}

lemma trans (h : SameTables s s') (h' : SameTables s' s'') : SameTables s s'' :=
  ⟨h'.slots.trans h.slots, h'.filter.trans h.filter⟩

/-- A rearrangement keeps the slots and the filter. -/
lemma of_rearranged (h : Rearranged s s') : SameTables s s' := ⟨by rw [h.slots], h.filter⟩

/-- A release keeps the slots and the filter. -/
lemma release (s : Slab V) (i : Nat) : SameTables s (s.release i).2 := by
  unfold Slab.release
  split
  · exact ⟨rfl, rfl⟩
  · exact ⟨by simp, rfl⟩

/-- A competition keeps the slots and the filter. -/
lemma contend (s : Slab V) (i : Nat) : SameTables s (s.contend i).2 := by
  unfold Slab.contend
  split
  · exact of_rearranged (.pushFront s i _)
  · split
    · exact release s i
    · split
      · exact ((of_rearranged (.unlink s _)).trans (release _ _)).trans
          (of_rearranged (.pushFront _ i _))
      · exact release s i

end SameTables

/-- A slab with room for all its entries gets a slot only when it has none to spare. -/
lemma Layout.slots_allocate (h : Layout s lists []) (key : String) (value : V) (hash : UInt64) :
    (s.allocate key value hash).2.slots.size ≤ max s.slots.size (s.size + 1) := by
  unfold allocate
  cases hfree : s.free with
  | cons i rest => simp
  | nil =>
    have hslots := h.slots_size
    rw [hfree, List.length_nil] at hslots
    have hsize := Sound.size_eq_total h
    simp only [Array.size_push]
    omega

@[simp] lemma slots_record (s : Slab V) (key : String) : (s.record key).slots = s.slots := by
  simp only [record]

/-! ## The invariant -/

/-- What holds of a slab between two calls. -/
structure Proper (s : Slab V) : Prop where
  sound : s.Sound
  slots_le : s.slots.size ≤ s.capacity + 1
  filter : s.filter.Sized

namespace Proper

/-- A slab stays proper when it keeps its capacity and its tables. -/
lemma of_same (h : Proper s) (hsound : s'.Sound) (hcapacity : s'.capacity = s.capacity)
    (hsame : SameTables s s') : Proper s' :=
  ⟨hsound, by rw [hsame.slots, hcapacity]; exact h.slots_le, by rw [hsame.filter]; exact h.filter⟩

/-- A new slab is proper. -/
lemma empty (hash : String → UInt64) (size samples : Nat) :
    Proper (Slab.empty hash size samples : Slab V) where
  sound := sound_empty hash size samples
  slots_le := by simp [Slab.empty]
  filter := by
    simp only [Slab.empty]
    exact Filter.sized_new _ _

/-- A new slab is the empty one, which is proper. -/
lemma new {hash : String → UInt64} {size samples : Nat}
    (h : Slab.new hash size samples = some s) : s = Slab.empty hash size samples ∧ Proper s := by
  unfold Slab.new at h
  split at h
  · obtain rfl := Option.some.inj h
    exact ⟨rfl, .empty hash size samples⟩
  · cases h

/-- Recording keeps a slab proper. -/
lemma record (h : Proper s) (key : String) : Proper (s.record key) where
  sound := h.sound.record key
  slots_le := by
    rw [capacity_record, slots_record]
    exact h.slots_le
  filter := by
    simp only [Slab.record]
    exact h.filter.record _

/-- Inserting a new key keeps a slab proper. -/
lemma insertNew (h : Proper s) (key : String) (value : V)
    (hsound : (s.insertNew key value).2.Sound)
    (hcapacity : (s.insertNew key value).2.capacity = s.capacity) :
    Proper (s.insertNew key value).2 := by
  obtain ⟨lists, hlayout, -⟩ := (h.record key).sound
  have hslots := hlayout.slots_allocate key value (s.hash key)
  have hfilter : ((s.record key).allocate key value (s.hash key)).2.filter =
      (s.record key).filter := (hlayout.extended key value).filter
  -- what follows the allocation keeps the slots and the filter
  have hsame : SameTables ((s.record key).allocate key value (s.hash key)).2
      (s.insertNew key value).2 := by
    have hfront := SameTables.of_rearranged (.pushFront
      ((s.record key).allocate key value (s.hash key)).2
      ((s.record key).allocate key value (s.hash key)).1 .window)
    rw [insertNew_eq]
    split
    · exact hfront
    · split
      · exact hfront
      · exact (hfront.trans (.of_rearranged (.unlink _ _))).trans (.contend _ _)
  have hsize := h.sound.size_le
  rw [size_record, slots_record] at hslots
  refine ⟨hsound, ?_, ?_⟩
  · rw [hsame.slots, hcapacity]
    refine hslots.trans (max_le ?_ (Nat.succ_le_succ hsize))
    exact h.slots_le
  · rw [hsame.filter, hfilter]
    exact (h.record key).filter

/-- **Every call** leaves a proper slab proper. -/
theorem call (h : Proper s) (c : MapCall V) : Proper (s.call c).2 := by
  cases c with
  | peek key => exact h
  | contains key => exact h
  | size => exact h
  | get key =>
    obtain ⟨hsound, -, -, hcapacity, -⟩ := h.sound.get key
    have hrecord := h.record key
    refine hrecord.of_same hsound (hcapacity.trans (capacity_record s key).symm) ?_
    show SameTables (s.record key) (s.get key).2
    unfold Slab.get
    dsimp only
    split
    · exact ⟨rfl, rfl⟩
    · exact .of_rearranged (.touch _ _)
  | remove key =>
    obtain ⟨hsound, -, -, hcapacity, -⟩ := h.sound.remove key
    refine h.of_same hsound hcapacity ?_
    show SameTables s (s.remove key).2
    unfold Slab.remove
    split
    · exact ⟨rfl, rfl⟩
    · exact (SameTables.of_rearranged (.unlink s _)).trans (.release _ _)
  | insert key value =>
    have hinserted := h.sound.insert key value
    have hsound := hinserted.sound
    have hcapacity := hinserted.capacity
    show Proper (s.insert key value).2
    unfold Slab.insert at hsound hcapacity ⊢
    cases hi : s.index[key]? with
    | none =>
      rw [hi] at hsound hcapacity
      exact h.insertNew key value hsound hcapacity
    | some i =>
      rw [hi] at hsound hcapacity
      refine h.of_same hsound hcapacity ?_
      have hslots : SameTables s { s with slots := s.slots.set! i (some (key, value)) } :=
        ⟨by simp, rfl⟩
      exact hslots.trans (.of_rearranged (.touch _ i))

end Proper

/-! ## The tables between two calls -/

/-- The tables of a slab whose segments visit the slots `lists`. -/
structure Represented (s : Slab V) (lists : Segment → List Nat) : Prop where
  /-- The next pointers lead from the head of a segment to its end. -/
  forward : ∀ g, Follows (fun i => (s.link i).next) (s.queue g).head (lists g)
  /-- The previous pointers lead back from the tail. -/
  backward : ∀ g, Follows (fun i => (s.link i).prev) (s.queue g).tail (lists g).reverse
  length : ∀ g, (s.queue g).length = (lists g).length
  tagged : ∀ g, ∀ i ∈ lists g, (s.link i).segment = g
  /-- No slot is visited twice, in one segment or in two. -/
  apart : (lists .window ++ lists .probation ++ lists .guarded).Nodup
  /-- The slots that are visited are those that hold an entry. -/
  occupied : ∀ i, (∃ g, i ∈ lists g) ↔ ∃ entry, s.entryAt i = some entry
  free_nodup : s.free.Nodup
  /-- The free slots are those that hold none. -/
  free : ∀ i, i ∈ s.free ↔ i < s.slots.size ∧ s.entryAt i = none
  /-- The index leads from each key to the slot that holds it, and nowhere else. -/
  index : ∀ key i, s.index[key]? = some i ↔ ∃ value, s.entryAt i = some (key, value)
  links : s.slots.size = s.links.size
  slots_le : s.slots.size ≤ s.capacity + 1

/-- A layout of a slab with few slots is how its tables represent its segments. -/
lemma Layout.represented (h : Layout s lists []) (hslots : s.slots.size ≤ s.capacity + 1) :
    Represented s lists := by
  refine ⟨fun g => ?_, fun g => ?_, h.length, fun g i hi => h.segment_eq hi, h.lists_nodup,
    fun i => ?_, h.free_nodup, h.mem_free, h.index, h.links.symm, hslots⟩
  · rw [h.head]
    exact (h.chain g).forward
  · rw [h.tail]
    exact (h.chain g).backward
  · rw [← Option.isSome_iff_exists, h.occupied]
    simp

/-- A proper slab has its tables in order. -/
lemma Proper.represented (h : Proper s) : ∃ lists, Represented s lists := by
  obtain ⟨lists, hlayout, -⟩ := h.sound
  exact ⟨lists, hlayout.represented h.slots_le⟩

/-- Calls one after another keep a slab proper and pass their checks. -/
lemma Proper.calls (h : Proper s) (calls : List (MapCall V)) :
    Checked.calls s calls = some (s.calls calls) ∧ Proper (s.calls calls).2 := by
  induction calls generalizing s with
  | nil => exact ⟨rfl, h⟩
  | cons c rest ih =>
    obtain ⟨hchecked, hproper⟩ := ih (h.call c)
    refine ⟨?_, hproper⟩
    simp only [Checked.calls, h.sound.checked_call h.filter c, Option.bind_eq_bind,
      Option.bind_some, hchecked]
    rfl

/-- **The representation of a slab.** Whatever its size, its samples and its hash function, and
whatever the calls to a new slab, afterwards its tables are in order: each segment is a doubly
linked list that ends and is as long as it says, the segments are disjoint and cover the slots that
hold an entry, the free slots are the others, the index leads to the slots of the keys, and there
are as many links as slots and at most one slot more than the slab may hold entries. No call
accessed a slot, a link, a counter or a bit that does not exist, followed the end of a list, or
made a list shorter than empty.

**Proof sketch.** A new slab is proper, and every call keeps it so (`Slab.Proper.call`) and passes
its checks (`Slab.Sound.checked_call`). -/
theorem calls_represented {hash : String → UInt64} {size samples : Nat}
    (h : Slab.new hash size samples = some s) (calls : List (MapCall V)) :
    Checked.calls s calls = some (s.calls calls) ∧
      ∃ lists, Represented (s.calls calls).2 lists := by
  obtain ⟨hchecked, hproper'⟩ := (Proper.new h).2.calls calls
  exact ⟨hchecked, hproper'.represented⟩

/-- The tables of a slab for two entries, after three keys came, one was read and one was
removed. -/
theorem calls_represented_pair :
    Slab.new (fun _ => 0) 2 0 = some (Slab.empty (fun _ => 0) 2 0 : Slab Bool) ∧
      ∃ lists, Represented ((Slab.empty (fun _ => 0) 2 0 : Slab Bool).calls
        [.insert "a" true, .insert "b" false, .insert "c" true, .get "c", .remove "c"]).2 lists := by
  have hnew : Slab.new (fun _ => 0) 2 0 = some (Slab.empty (fun _ => 0) 2 0 : Slab Bool) := by
    simp [Slab.new, sizeLimit]
  exact ⟨hnew, (calls_represented hnew _).2⟩

end Slab

end LayeredCache.Eviction
