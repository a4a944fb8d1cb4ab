import Mathlib.Data.List.Nodup
import Mathlib.Logic.Function.Basic
import LayeredCache.Proofs.Eviction.Chain

/-!
# Layout of a slab

Which slots a slab uses, and how. A layout names the slots of each segment, the most recent first,
and the *loose* slots, whose nodes are in no list because they are about to be put into one or to
be released. Every operation on a slab takes nodes out of lists and puts them into lists, so each
of these single moves has its lemma here, and an operation follows by composition.

## Main definitions

* `Slab.Rearranged` — two slabs that differ in links and lists only.
* `Slab.Layout` — the slots of the segments, the free slots and the index fit together.
* `putFront`, `takeOut` — a slot is put before the others of its segment, or taken out.

## Main results

* `Slab.Layout.pushFront`, `Slab.Layout.unlink`, `Slab.Layout.moveTo` — moves inside a slab.
* `Slab.Layout.allocate`, `Slab.Layout.release` — an entry comes in or goes.
-/

set_option autoImplicit false

namespace LayeredCache.Eviction

/-- The slots of the segments after slot `i` was put before the others of `g`. -/
def putFront (lists : Segment → List Nat) (i : Nat) (g : Segment) : Segment → List Nat :=
  Function.update lists g (i :: lists g)

/-- The slots of the segments without slot `i`. -/
def takeOut (lists : Segment → List Nat) (i : Nat) : Segment → List Nat :=
  fun g => (lists g).erase i

/-- The number of slots in all segments. -/
def total (lists : Segment → List Nat) : Nat :=
  (lists .window).length + (lists .probation).length + (lists .guarded).length

/-- Putting a slot in makes one slot more. -/
lemma total_putFront (lists : Segment → List Nat) (i : Nat) (g : Segment) :
    total (putFront lists i g) = total lists + 1 := by
  cases g <;> simp [total, putFront] <;> omega

namespace Slab

variable {V : Type} {s : Slab V}

/-! ## Links and lists after a single change -/

lemma link_setLink (s : Slab V) (i j : Nat) (f : Link → Link) :
    (s.setLink i f).link j =
      if i = j ∧ j < s.links.size then f (s.link j) else s.link j := by
  unfold link setLink
  by_cases hj : j < s.links.size
  · by_cases hij : i = j <;> simp [Array.getElem_modify, hj, hij]
  · simp [hj]

lemma link_setLink? (s : Slab V) (i : Option Nat) (j : Nat) (f : Link → Link) :
    (s.setLink? i f).link j =
      if i = some j ∧ j < s.links.size then f (s.link j) else s.link j := by
  cases i with
  | none => simp [setLink?]
  | some i => simp [setLink?, link_setLink]

lemma queue_setQueue (s : Slab V) (g h : Segment) (q : Queue) :
    (s.setQueue g q).queue h = if h = g then q else s.queue h := by
  cases g <;> cases h <;> rfl

@[simp] lemma link_setQueue (s : Slab V) (g : Segment) (q : Queue) (i : Nat) :
    (s.setQueue g q).link i = s.link i := by
  cases g <;> rfl

@[simp] lemma queue_setLink (s : Slab V) (i : Nat) (f : Link → Link) (g : Segment) :
    (s.setLink i f).queue g = s.queue g := by
  cases g <;> rfl

@[simp] lemma queue_setLink? (s : Slab V) (i : Option Nat) (f : Link → Link) (g : Segment) :
    (s.setLink? i f).queue g = s.queue g := by
  cases i <;> simp [setLink?]

@[simp] lemma links_setQueue (s : Slab V) (g : Segment) (q : Queue) :
    (s.setQueue g q).links = s.links := by
  cases g <;> rfl

@[simp] lemma size_links_setLink (s : Slab V) (i : Nat) (f : Link → Link) :
    (s.setLink i f).links.size = s.links.size := by
  simp [setLink]

@[simp] lemma size_links_setLink? (s : Slab V) (i : Option Nat) (f : Link → Link) :
    (s.setLink? i f).links.size = s.links.size := by
  cases i <;> simp [setLink?]

/-! ## Slabs that differ in links and lists only -/

/-- The slab `s'` holds the entries of `s` in the same slots. -/
structure Rearranged (s s' : Slab V) : Prop where
  slots : s'.slots = s.slots
  index : s'.index = s.index
  free : s'.free = s.free
  filter : s'.filter = s.filter
  hash : s'.hash = s.hash
  mainCapacity : s'.mainCapacity = s.mainCapacity
  capacity : ∀ g, (s'.queue g).capacity = (s.queue g).capacity
  links : s'.links.size = s.links.size
  linkHash : ∀ i, (s'.link i).hash = (s.link i).hash

namespace Rearranged

variable {s' s'' : Slab V}

lemma refl (s : Slab V) : Rearranged s s :=
  ⟨rfl, rfl, rfl, rfl, rfl, rfl, fun _ => rfl, rfl, fun _ => rfl⟩

lemma trans (h : Rearranged s s') (h' : Rearranged s' s'') : Rearranged s s'' :=
  ⟨h'.slots.trans h.slots, h'.index.trans h.index, h'.free.trans h.free,
    h'.filter.trans h.filter, h'.hash.trans h.hash, h'.mainCapacity.trans h.mainCapacity,
    fun g => (h'.capacity g).trans (h.capacity g), h'.links.trans h.links,
    fun i => (h'.linkHash i).trans (h.linkHash i)⟩

lemma setLink (s : Slab V) (i : Nat) {f : Link → Link} (hf : ∀ l, (f l).hash = l.hash) :
    Rearranged s (s.setLink i f) := by
  refine ⟨rfl, rfl, rfl, rfl, rfl, rfl, fun g => by simp, by simp, fun j => ?_⟩
  rw [link_setLink]
  split
  · exact hf _
  · rfl

lemma setLink? (s : Slab V) (i : Option Nat) {f : Link → Link} (hf : ∀ l, (f l).hash = l.hash) :
    Rearranged s (s.setLink? i f) := by
  cases i with
  | none => exact refl s
  | some i => exact setLink s i hf

lemma setQueue (s : Slab V) (g : Segment) {q : Queue} (hq : q.capacity = (s.queue g).capacity) :
    Rearranged s (s.setQueue g q) := by
  cases g <;> exact ⟨rfl, rfl, rfl, rfl, rfl, rfl, fun h => by cases h <;> first | rfl | exact hq,
    rfl, fun _ => rfl⟩

/-- A slab keeps its entries when a node is put at the front of a list. -/
lemma pushFront (s : Slab V) (i : Nat) (g : Segment) : Rearranged s (s.pushFront i g) := by
  refine ((setQueue s g ?_).trans (setLink _ i ?_)).trans (setLink? _ _ ?_)
  · rfl
  · exact fun _ => rfl
  · exact fun _ => rfl

/-- A slab keeps its entries when a node is taken out of its list. -/
lemma unlink (s : Slab V) (i : Nat) : Rearranged s (s.unlink i) := by
  have h := (setLink? s (s.link i).prev (f := fun m => { m with next := (s.link i).next })
    fun _ => rfl).trans (setLink? _ (s.link i).next
      (f := fun m => { m with prev := (s.link i).prev }) fun _ => rfl)
  refine (h.trans (setQueue _ _ ?_)).trans (setLink _ _ fun _ => rfl)
  simp

/-- A slab keeps its entries when a node is moved. -/
lemma moveTo (s : Slab V) (i : Nat) (g : Segment) : Rearranged s (s.moveTo i g) :=
  (unlink s i).trans (pushFront _ i g)

lemma entryAt (h : Rearranged s s') (i : Nat) : s'.entryAt i = s.entryAt i := by
  simp only [Slab.entryAt, h.slots]

end Rearranged

/-! ## Layouts -/

/-- The segments consist of the slots `lists`, and the slots `loose` hold entries that are in no
segment. -/
structure Layout (s : Slab V) (lists : Segment → List Nat) (loose : List Nat) : Prop where
  chain : ∀ g, Chain s.link g none (lists g) none
  head : ∀ g, (s.queue g).head = (lists g).head?
  tail : ∀ g, (s.queue g).tail = (lists g).getLast?
  length : ∀ g, (s.queue g).length = (lists g).length
  nodup : ∀ g, (lists g).Nodup
  apart : ∀ i ∈ loose, ∀ g, i ∉ lists g
  loose_nodup : loose.Nodup
  /-- Every slot has a link. -/
  links : s.links.size = s.slots.size
  occupied : ∀ i, (s.entryAt i).isSome ↔ i ∈ loose ∨ ∃ g, i ∈ lists g
  free_nodup : s.free.Nodup
  mem_free : ∀ i, i ∈ s.free ↔ i < s.slots.size ∧ s.entryAt i = none
  /-- The index leads from each key to the slot that holds it, and nowhere else. -/
  index : ∀ key i, s.index[key]? = some i ↔ ∃ value, s.entryAt i = some (key, value)
  size : s.index.size = total lists + loose.length
  /-- A node remembers the hash of its key. -/
  hash : ∀ i key value, s.entryAt i = some (key, value) → (s.link i).hash = s.hash key

namespace Layout

variable {lists : Segment → List Nat} {loose : List Nat} {i : Nat} {g : Segment}

lemma segment_eq (h : Layout s lists loose) (hi : i ∈ lists g) : (s.link i).segment = g :=
  (h.chain g).segment_of_mem hi

/-- A slot is in one segment at most. -/
lemma eq_of_mem (h : Layout s lists loose) {g' : Segment} (hi : i ∈ lists g)
    (hi' : i ∈ lists g') : g = g' :=
  (h.segment_eq hi).symm.trans (h.segment_eq hi')

lemma lt_of_entry {e : String × V} (he : s.entryAt i = some e) : i < s.slots.size := by
  by_contra hlt
  simp [entryAt, Array.getElem?_eq_none (Nat.le_of_not_lt hlt)] at he

/-- The slots of the segments are in the slab. -/
lemma lt_of_mem (h : Layout s lists loose) (hi : i ∈ lists g) : i < s.links.size := by
  obtain ⟨e, he⟩ := Option.isSome_iff_exists.mp ((h.occupied i).mpr (.inr ⟨g, hi⟩))
  rw [h.links]
  exact lt_of_entry he

lemma lt_of_loose (h : Layout s lists (i :: loose)) : i < s.links.size := by
  obtain ⟨e, he⟩ := Option.isSome_iff_exists.mp ((h.occupied i).mpr (.inl List.mem_cons_self))
  rw [h.links]
  exact lt_of_entry he

/-- The parts of a layout that do not mention links and lists pass on to a rearranged slab. -/
lemma rearrange {s' : Slab V} {lists' : Segment → List Nat} {loose' : List Nat}
    (h : Layout s lists loose) (hs : Rearranged s s')
    (chain : ∀ g, Chain s'.link g none (lists' g) none)
    (head : ∀ g, (s'.queue g).head = (lists' g).head?)
    (tail : ∀ g, (s'.queue g).tail = (lists' g).getLast?)
    (length : ∀ g, (s'.queue g).length = (lists' g).length)
    (nodup : ∀ g, (lists' g).Nodup) (apart : ∀ i ∈ loose', ∀ g, i ∉ lists' g)
    (loose_nodup : loose'.Nodup)
    (mem : ∀ i, (i ∈ loose' ∨ ∃ g, i ∈ lists' g) ↔ (i ∈ loose ∨ ∃ g, i ∈ lists g))
    (size : total lists' + loose'.length = total lists + loose.length) :
    Layout s' lists' loose' where
  chain := chain
  head := head
  tail := tail
  length := length
  nodup := nodup
  apart := apart
  loose_nodup := loose_nodup
  links := by rw [hs.links, hs.slots, h.links]
  occupied i := by rw [hs.entryAt, mem, h.occupied]
  free_nodup := by rw [hs.free]; exact h.free_nodup
  mem_free i := by rw [hs.free, hs.slots, hs.entryAt, h.mem_free]
  index key i := by rw [hs.index, hs.entryAt, h.index]
  size := by rw [hs.index, h.size, size]
  hash i key value he := by
    rw [hs.linkHash, hs.hash]
    exact h.hash i key value (by rw [← hs.entryAt, he])

/-! ## Putting a node in -/

lemma link_pushFront (h : Layout s lists (i :: loose)) (g : Segment) :
    (s.pushFront i g).link i =
      { s.link i with prev := none, next := (lists g).head?, segment := g } := by
  have hne : (lists g).head? ≠ some i := fun hhead =>
    h.apart i List.mem_cons_self g (List.mem_of_head? hhead)
  simp [Slab.pushFront, link_setLink?, link_setLink, hne, h.lt_of_loose, h.head]

lemma link_pushFront_of_ne (h : Layout s lists (i :: loose)) {j : Nat} (hj : j ≠ i)
    (hlt : j < s.links.size) (g : Segment) :
    (s.pushFront i g).link j =
      if (lists g).head? = some j then { s.link j with prev := some i } else s.link j := by
  simp [Slab.pushFront, link_setLink?, link_setLink, hj.symm, hlt, h.head]

lemma queue_pushFront (s : Slab V) (i : Nat) (g g' : Segment) :
    (s.pushFront i g).queue g' =
      if g' = g then
        { s.queue g with
          head := some i
          tail := (s.queue g).tail.or (some i)
          length := (s.queue g).length + 1 }
      else s.queue g' := by
  simp [Slab.pushFront, queue_setQueue]

/-- **Putting a loose node in**: it becomes the most recent node of the segment. -/
lemma pushFront (h : Layout s lists (i :: loose)) (g : Segment) :
    Layout (s.pushFront i g) (putFront lists i g) loose := by
  have hne : ∀ g' j, j ∈ lists g' → j ≠ i := by
    rintro g' j hj rfl
    exact h.apart j List.mem_cons_self g' hj
  refine h.rearrange (Rearranged.pushFront s i g) (fun g' => ?_) (fun g' => ?_) (fun g' => ?_)
    (fun g' => ?_) (fun g' => ?_) (fun j hj g' => ?_) (List.nodup_cons.mp h.loose_nodup).2
    (fun j => ?_) ?_
  · by_cases hg : g' = g
    · subst hg
      rw [putFront, Function.update_self]
      refine ⟨?_, ?_, ?_, (h.chain g').reprev (h.nodup g') fun j hj => ?_⟩
      · rw [h.link_pushFront]
      · rw [h.link_pushFront]
      · rw [h.link_pushFront, Option.or_none]
      · exact h.link_pushFront_of_ne (hne g' j hj) (h.lt_of_mem hj) g'
    · rw [putFront, Function.update_of_ne hg]
      refine (h.chain g').congr fun j hj => ?_
      have hhead : (lists g).head? ≠ some j := fun hhead =>
        hg (h.eq_of_mem hj (List.mem_of_head? hhead))
      rw [h.link_pushFront_of_ne (hne g' j hj) (h.lt_of_mem hj), if_neg hhead]
  · by_cases hg : g' = g
    · subst hg
      simp [queue_pushFront, putFront]
    · simp [queue_pushFront, putFront, hg, h.head]
  · by_cases hg : g' = g
    · subst hg
      cases hlast : (lists g').getLast? <;>
        simp [queue_pushFront, putFront, h.tail, List.getLast?_cons, hlast]
    · simp [queue_pushFront, putFront, hg, h.tail]
  · by_cases hg : g' = g
    · subst hg
      simp [queue_pushFront, putFront, h.length]
    · simp [queue_pushFront, putFront, hg, h.length]
  · by_cases hg : g' = g
    · subst hg
      rw [putFront, Function.update_self]
      exact List.nodup_cons.mpr ⟨h.apart i List.mem_cons_self g', h.nodup g'⟩
    · rw [putFront, Function.update_of_ne hg]
      exact h.nodup g'
  · have hji : j ≠ i := by
      rintro rfl
      exact (List.nodup_cons.mp h.loose_nodup).1 hj
    have hout := h.apart j (List.mem_cons_of_mem _ hj) g'
    by_cases hg : g' = g
    · subst hg
      simpa [putFront, hji] using hout
    · simpa [putFront, hg] using hout
  · constructor
    · rintro (hj | ⟨g', hj⟩)
      · exact .inl (List.mem_cons_of_mem _ hj)
      · by_cases hg : g' = g
        · subst hg
          rw [putFront, Function.update_self] at hj
          rcases List.mem_cons.mp hj with rfl | hj
          · exact .inl List.mem_cons_self
          · exact .inr ⟨g', hj⟩
        · rw [putFront, Function.update_of_ne hg] at hj
          exact .inr ⟨g', hj⟩
    · rintro (hj | ⟨g', hj⟩)
      · rcases List.mem_cons.mp hj with rfl | hj
        · exact .inr ⟨g, by simp [putFront]⟩
        · exact .inl hj
      · by_cases hg : g' = g
        · subst hg
          exact .inr ⟨g', by simp [putFront, hj]⟩
        · exact .inr ⟨g', by simp [putFront, hg, hj]⟩
  · simp only [total_putFront, List.length_cons]
    omega

/-! ## Taking a node out -/

lemma link_unlink (h : Layout s lists loose) {j : Nat} {xs ys : List Nat}
    (hsplit : lists g = xs ++ i :: ys) (hj : j ≠ i) (hlt : j < s.links.size) :
    (s.unlink i).link j =
      if xs.getLast? = some j then { s.link j with next := ys.head? }
      else if ys.head? = some j then { s.link j with prev := xs.getLast? }
      else s.link j := by
  have hchain := h.chain g
  have hnodup := h.nodup g
  rw [hsplit] at hchain hnodup
  obtain ⟨hprev, hnext⟩ := hchain.neighbours
  have hapart : xs.getLast? = some j → ys.head? ≠ some j := by
    intro hlast hhead
    exact (List.nodup_append.mp hnodup).2.2 j (List.mem_of_getLast? hlast) j
      (List.mem_cons_of_mem _ (List.mem_of_head? hhead)) rfl
  simp only [Slab.unlink, link_setLink, link_setLink?, link_setQueue, links_setQueue,
    size_links_setLink?, hprev, hnext, hj.symm, hlt, and_true, if_false]
  by_cases hlast : xs.getLast? = some j
  · simp [hlast, hapart hlast]
  · simp [hlast]

lemma queue_unlink (h : Layout s lists loose) {xs ys : List Nat}
    (hsplit : lists g = xs ++ i :: ys) (g' : Segment) :
    (s.unlink i).queue g' =
      if g' = g then
        { s.queue g with
          head := (xs ++ ys).head?
          tail := (xs ++ ys).getLast?
          length := (xs ++ ys).length }
      else s.queue g' := by
  have hi : i ∈ lists g := by simp [hsplit]
  have hchain := h.chain g
  rw [hsplit] at hchain
  obtain ⟨hprev, hnext⟩ := hchain.neighbours
  have hhead := h.head g
  have htail := h.tail g
  have hlength := h.length g
  rw [hsplit] at hhead htail hlength
  simp only [Slab.unlink, queue_setLink, queue_setQueue, queue_setLink?, h.segment_eq hi, hprev,
    hnext]
  by_cases hg : g' = g
  · rw [if_pos hg, if_pos hg]
    congr 1
    · cases xs with
      | nil => simp
      | cons x xs => simp [hhead, List.getLast?_cons]
    · cases ys with
      | nil => simp
      | cons y ys => simp [htail]
    · simp [hlength]
  · rw [if_neg hg, if_neg hg]

/-- **Taking a node out**: it is loose then, and the others of its segment keep their order. -/
lemma unlink (h : Layout s lists loose) (hi : i ∈ lists g) :
    Layout (s.unlink i) (takeOut lists i) (i :: loose) := by
  obtain ⟨xs, ys, hsplit⟩ := List.append_of_mem hi
  have hnodup := h.nodup g
  rw [hsplit] at hnodup
  have hix : i ∉ xs := fun hx =>
    (List.nodup_append.mp hnodup).2.2 i hx i List.mem_cons_self rfl
  have hself : takeOut lists i g = xs ++ ys := by
    rw [takeOut, hsplit, List.erase_append_right _ hix, List.erase_cons_head]
  have hother : ∀ g', g' ≠ g → takeOut lists i g' = lists g' := by
    intro g' hg
    exact List.erase_of_not_mem fun hi' => hg (h.eq_of_mem hi' hi)
  have hout : ∀ g', i ∉ takeOut lists i g' := fun g' => (h.nodup g').not_mem_erase
  have hne : ∀ g' j, j ∈ takeOut lists i g' → j ≠ i := by
    rintro g' j hj rfl
    exact hout g' hj
  have hmem : ∀ g' j, j ∈ takeOut lists i g' → j ∈ lists g' := fun g' j =>
    List.mem_of_mem_erase
  refine h.rearrange (Rearranged.unlink s i) (fun g' => ?_) (fun g' => ?_) (fun g' => ?_)
    (fun g' => ?_) (fun g' => (h.nodup g').erase i) ?_ ?_ (fun j => ?_) ?_
  · by_cases hg : g' = g
    · subst hg
      have hchain := h.chain g'
      rw [hsplit] at hchain
      rw [hself]
      refine hchain.cut hnodup fun j hj => ?_
      rw [← hself] at hj
      exact h.link_unlink hsplit (hne g' j hj) (h.lt_of_mem (hmem g' j hj))
    · rw [hother g' hg]
      refine (h.chain g').congr fun j hj => ?_
      have hlast : xs.getLast? ≠ some j := fun hlast => hg <| h.eq_of_mem hj <| by
        rw [hsplit]
        exact List.mem_append_left _ (List.mem_of_getLast? hlast)
      have hhead : ys.head? ≠ some j := fun hhead => hg <| h.eq_of_mem hj <| by
        rw [hsplit]
        exact List.mem_append_right _ (List.mem_cons_of_mem _ (List.mem_of_head? hhead))
      have hji : j ≠ i := fun hji => hg (h.eq_of_mem hj (hji ▸ hi))
      rw [h.link_unlink hsplit hji (h.lt_of_mem hj), if_neg hlast, if_neg hhead]
  · rw [h.queue_unlink hsplit]
    by_cases hg : g' = g
    · rw [if_pos hg, hg, hself]
    · rw [if_neg hg, hother g' hg, h.head]
  · rw [h.queue_unlink hsplit]
    by_cases hg : g' = g
    · rw [if_pos hg, hg, hself]
    · rw [if_neg hg, hother g' hg, h.tail]
  · rw [h.queue_unlink hsplit]
    by_cases hg : g' = g
    · rw [if_pos hg, hg, hself]
    · rw [if_neg hg, hother g' hg, h.length]
  · intro j hj g'
    rcases List.mem_cons.mp hj with rfl | hj
    · exact hout g'
    · exact fun hj' => h.apart j hj g' (hmem g' j hj')
  · exact List.nodup_cons.mpr ⟨fun hi' => h.apart i hi' g hi, h.loose_nodup⟩
  · constructor
    · rintro (hj | ⟨g', hj⟩)
      · rcases List.mem_cons.mp hj with rfl | hj
        · exact .inr ⟨g, hi⟩
        · exact .inl hj
      · exact .inr ⟨g', hmem g' j hj⟩
    · rintro (hj | ⟨g', hj⟩)
      · exact .inl (List.mem_cons_of_mem _ hj)
      · by_cases hji : j = i
        · exact .inl (hji ▸ List.mem_cons_self)
        · exact .inr ⟨g', (List.mem_erase_of_ne hji).mpr hj⟩
  · have hlen : (takeOut lists i g).length + 1 = (lists g).length := by
      rw [hself, hsplit]
      simp
      omega
    have hlen' : ∀ g', g' ≠ g → (takeOut lists i g').length = (lists g').length :=
      fun g' hg => by rw [hother g' hg]
    cases g <;> simp [total, hlen'] <;> omega

/-- **Moving a node**: it becomes the most recent node of the segment that it is moved to. -/
lemma moveTo (h : Layout s lists loose) (hi : i ∈ lists g) (g' : Segment) :
    Layout (s.moveTo i g') (putFront (takeOut lists i) i g') loose :=
  (h.unlink hi).pushFront g'

end Layout

/-! ## Entries that come and go -/

lemma entryAt_setSlot (s : Slab V) (i j : Nat) (e : Option (String × V)) (hi : i < s.slots.size) :
    ({ s with slots := s.slots.set! i e } : Slab V).entryAt j =
      if j = i then e else s.entryAt j := by
  unfold entryAt
  by_cases hj : j = i
  · subst hj
    simp [Array.set!_eq_setIfInBounds, hi]
  · simp [Array.set!_eq_setIfInBounds, hj, Ne.symm hj]

lemma entryAt_pushSlot (s : Slab V) (j : Nat) (e : Option (String × V)) :
    ({ s with slots := s.slots.push e } : Slab V).entryAt j =
      if j = s.slots.size then e else s.entryAt j := by
  unfold entryAt
  by_cases hj : j = s.slots.size
  · simp [hj]
  · simp [Array.getElem?_push, hj]

/-- A release empties one slot. -/
lemma entryAt_release {i : Nat} {e : String × V} (hi : s.entryAt i = some e) (j : Nat) :
    (s.release i).2.entryAt j = if j = i then none else s.entryAt j := by
  have hlt : i < s.slots.size := Layout.lt_of_entry hi
  rw [← entryAt_setSlot s i j _ hlt]
  simp only [Slab.release, hi]
  rfl

/-- The slab `s'` has an entry under `key` in slot `i`, which was free in `s`, and is `s`
elsewhere. -/
structure Extended (s : Slab V) (key : String) (value : V) (i : Nat) (s' : Slab V) : Prop where
  free : s.entryAt i = none
  entry : ∀ j, s'.entryAt j = if j = i then some (key, value) else s.entryAt j
  link : ∀ j, s'.link j = if j = i then { hash := s.hash key } else s.link j
  index : s'.index = s.index.insert key i
  queue : ∀ g, s'.queue g = s.queue g
  filter : s'.filter = s.filter
  hash : s'.hash = s.hash
  mainCapacity : s'.mainCapacity = s.mainCapacity
  links : s'.links.size = s'.slots.size
  free_nodup : s'.free.Nodup
  mem_free : ∀ j, j ∈ s'.free ↔ j < s'.slots.size ∧ s'.entryAt j = none

/-- An allocation takes the slot that was freed last, or a new one.

**Proof sketch.** A slot from the free list is empty and in range, and leaves the free list. When
there is no free slot the new one is the last, and every slot before it is occupied. -/
lemma Layout.extended {lists : Segment → List Nat} {loose : List Nat} (h : Layout s lists loose)
    (key : String) (value : V) :
    Extended s key value (s.allocate key value (s.hash key)).1
      (s.allocate key value (s.hash key)).2 := by
  cases hfree : s.free with
  | nil =>
    have hentry : ∀ j, (s.allocate key value (s.hash key)).2.entryAt j =
        if j = s.slots.size then some (key, value) else s.entryAt j := by
      intro j
      rw [← entryAt_pushSlot]
      simp only [allocate, hfree]
      rfl
    simp only [allocate, hfree] at hentry ⊢
    refine ⟨?_, hentry, fun j => ?_, rfl, fun g => by cases g <;> rfl, rfl, rfl, rfl,
      by simp [h.links], List.nodup_nil, fun j => ?_⟩
    · simp [entryAt]
    · by_cases hj : j = s.slots.size
      · simp [link, hj, ← h.links]
      · simp [link, Array.getElem?_push, h.links, hj]
    · rw [hentry]
      have := h.mem_free j
      simp only [hfree, List.not_mem_nil, false_iff, not_and] at this ⊢
      intro hlt
      by_cases hj : j = s.slots.size
      · simp [hj]
      · simpa [hj] using this (by simp at hlt; omega)
  | cons i free =>
    obtain ⟨hlt, hnone⟩ := (h.mem_free i).mp (by simp [hfree])
    have hnodup := h.free_nodup
    rw [hfree] at hnodup
    have hentry : ∀ j, (s.allocate key value (s.hash key)).2.entryAt j =
        if j = i then some (key, value) else s.entryAt j := by
      intro j
      rw [← entryAt_setSlot s i j _ hlt]
      simp only [allocate, hfree]
      rfl
    simp only [allocate, hfree] at hentry ⊢
    refine ⟨hnone, hentry, fun j => ?_, rfl, fun g => by cases g <;> rfl, rfl, rfl, rfl,
      by simp [h.links], (List.nodup_cons.mp hnodup).2, fun j => ?_⟩
    · by_cases hj : j = i
      · subst hj
        simp [link, Array.set!_eq_setIfInBounds, h.links, hlt]
      · simp [link, Array.set!_eq_setIfInBounds, hj, Ne.symm hj]
    · rw [hentry]
      have hmem := h.mem_free j
      rw [hfree, List.mem_cons] at hmem
      by_cases hj : j = i
      · subst hj
        simpa using (List.nodup_cons.mp hnodup).1
      · simpa [hj] using hmem

namespace Layout

variable {lists : Segment → List Nat} {loose : List Nat} {i : Nat} {g : Segment}

lemma notMem_of_entry_none (h : Layout s lists loose) (hi : s.entryAt i = none) (g : Segment) :
    i ∉ lists g := by
  intro hmem
  have := (h.occupied i).mpr (.inr ⟨g, hmem⟩)
  simp [hi] at this

/-- **A new entry** is loose at first. -/
lemma extend {key : String} {value : V} {s' : Slab V} (h : Layout s lists loose)
    (hnew : s.index[key]? = none) (hs : Extended s key value i s') :
    Layout s' lists (i :: loose) where
  chain g := (h.chain g).congr fun j hj => by
    have hne : j ≠ i := fun hji => h.notMem_of_entry_none hs.free g (hji ▸ hj)
    rw [hs.link, if_neg hne]
  head g := by rw [hs.queue, h.head]
  tail g := by rw [hs.queue, h.tail]
  length g := by rw [hs.queue, h.length]
  nodup := h.nodup
  apart j hj g := by
    rcases List.mem_cons.mp hj with rfl | hj
    · exact h.notMem_of_entry_none hs.free g
    · exact h.apart j hj g
  loose_nodup := by
    refine List.nodup_cons.mpr ⟨fun hi => ?_, h.loose_nodup⟩
    have := (h.occupied i).mpr (.inl hi)
    simp [hs.free] at this
  links := hs.links
  occupied j := by
    rw [hs.entry]
    by_cases hj : j = i
    · simp [hj]
    · simp [hj, h.occupied]
  free_nodup := hs.free_nodup
  mem_free := hs.mem_free
  index key' j := by
    rw [hs.index, Std.HashMap.getElem?_insert, hs.entry]
    by_cases hkey : key = key'
    · subst hkey
      by_cases hj : j = i
      · simp [hj]
      · have hnone : ¬ ∃ v, s.entryAt j = some (key, v) := fun hv => by
          rw [(h.index key j).mpr hv] at hnew
          simp at hnew
        simp [hj, Ne.symm hj, hnone]
    · have hfree : s.index[key']? ≠ some i := fun hi => by
        obtain ⟨v, hv⟩ := (h.index key' i).mp hi
        rw [hs.free] at hv
        simp at hv
      by_cases hj : j = i
      · subst hj
        simp [hkey, hfree]
      · simp [hkey, hj, h.index]
  size := by
    have hmem : key ∉ s.index := by
      rw [Std.HashMap.mem_iff_isSome_getElem?, hnew]
      simp
    rw [hs.index, Std.HashMap.size_insert, if_neg hmem, h.size, List.length_cons]
    omega
  hash j key' v he := by
    rw [hs.entry] at he
    rw [hs.link, hs.hash]
    by_cases hj : j = i
    · simp only [hj, if_true, Option.some.injEq, Prod.mk.injEq] at he ⊢
      rw [he.1]
    · rw [if_neg hj] at he ⊢
      exact h.hash j key' v he

/-- **Releasing a loose node** gives its entry back and frees its slot. -/
lemma release {key : String} {value : V} (h : Layout s lists (i :: loose))
    (hi : s.entryAt i = some (key, value)) : Layout (s.release i).2 lists loose := by
  have hlt := lt_of_entry hi
  have hentry := entryAt_release hi
  have hindex : s.index[key]? = some i := (h.index key i).mpr ⟨value, hi⟩
  simp only [Slab.release, hi] at hentry ⊢
  constructor
  · exact h.chain
  · exact h.head
  · exact h.tail
  · exact h.length
  · exact h.nodup
  · exact fun j hj => h.apart j (List.mem_cons_of_mem _ hj)
  · exact (List.nodup_cons.mp h.loose_nodup).2
  · simpa using h.links
  · intro j
    rw [hentry]
    by_cases hj : j = i
    · simp [hj, h.apart i List.mem_cons_self, (List.nodup_cons.mp h.loose_nodup).1]
    · simp [hj, h.occupied]
  · refine List.nodup_cons.mpr ⟨fun hmem => ?_, h.free_nodup⟩
    rw [h.mem_free, hi] at hmem
    simp at hmem
  · intro j
    rw [hentry, List.mem_cons, h.mem_free]
    by_cases hj : j = i
    · simp [hj, hlt]
    · simp [hj]
  · intro key' j
    rw [hentry, Std.HashMap.getElem?_erase]
    by_cases hkey : key = key'
    · subst hkey
      have hother : j ≠ i → ¬ ∃ v, s.entryAt j = some (key, v) := by
        intro hj hv
        rw [← h.index, hindex] at hv
        exact hj (Option.some.inj hv).symm
      by_cases hj : j = i
      · simp [hj]
      · simp [hj, hother hj]
    · by_cases hj : j = i
      · subst hj
        have hne : ¬ ∃ v, s.entryAt j = some (key', v) := by
          rintro ⟨v, hv⟩
          rw [hi, Option.some.injEq, Prod.mk.injEq] at hv
          exact hkey hv.1
        simpa [hkey] using fun hj => hne ((h.index key' j).mp hj)
      · simp [hkey, hj, h.index]
  · have hmem : key ∈ s.index := by
      rw [Std.HashMap.mem_iff_isSome_getElem?, hindex]
      rfl
    have hsize := h.size
    rw [Std.HashMap.size_erase, if_pos hmem, hsize, List.length_cons]
    omega
  · intro j key' v he
    rw [hentry] at he
    by_cases hj : j = i
    · simp [hj] at he
    · rw [if_neg hj] at he
      exact h.hash j key' v he

end Layout

end Slab

end LayeredCache.Eviction
