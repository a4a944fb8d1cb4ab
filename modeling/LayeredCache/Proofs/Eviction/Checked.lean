import LayeredCache.Proofs.Eviction.FiniteMap
import LayeredCache.Proofs.Frequency.Places

/-!
# A slab that checks its accesses

A slab reads and writes its tables at numbers that it finds in links, lists, the index and the
list of free slots. The operations here do what the operations of a slab do, and give up at the
first access outside a table: at a slot or a link that does not exist, at the end of a list where
a node is expected, at a list that would get shorter than empty, at a counter or a bit of the
filter that is not there. With a layout they never give up, and so they are the operations of the
slab.

## Main definitions

* `Checked.pushFront`, `Checked.unlink`, `Checked.allocate`, `Checked.release` — changes of a slab
  that check every access.
* `Checked.get`, `Checked.peek`, `Checked.insert`, `Checked.remove` — the operations over them.
* `Checked.call`, `Checked.calls` — a slab answers one call or several, checking every access.

## Main results

* `Slab.Layout.checked_pushFront`, `Slab.Layout.checked_unlink`, `Slab.Layout.checked_touch`,
  `Slab.Layout.checked_contend` — with a layout, each change passes its checks.
* `Slab.Sound.checked_call` — a sound slab with a sized filter passes the checks of every call.
-/

set_option autoImplicit false

namespace LayeredCache.Eviction

open LayeredCache.Frequency

variable {V : Type}

namespace Checked

/-! ## Links and slots -/

/-- Changes the link of a slot that there is. -/
def setLink (s : Slab V) (i : Nat) (f : Link → Link) : Option (Slab V) :=
  if i < s.links.size then some (s.setLink i f) else none

/-- Changes the link to which a pointer leads, if it leads to one. -/
def setLink? (s : Slab V) (i : Option Nat) (f : Link → Link) : Option (Slab V) :=
  match i with
  | some i => setLink s i f
  | none => some s

/-- Puts an unlinked node at the front of a segment. -/
def pushFront (s : Slab V) (i : Nat) (segment : Segment) : Option (Slab V) := do
  let q := s.queue segment
  let s := s.setQueue segment
    { q with head := some i, tail := q.tail.or (some i), length := q.length + 1 }
  let s ← setLink s i fun l => { l with prev := none, next := q.head, segment := segment }
  setLink? s q.head fun l => { l with prev := some i }

/-- The length of a list that loses a node. -/
def shorten (length : Nat) : Option Nat := if 0 < length then some (length - 1) else none

/-- Takes a node out of its segment's list. -/
def unlink (s : Slab V) (i : Nat) : Option (Slab V) := do
  let l ← s.links[i]?
  let q := s.queue l.segment
  let s ← setLink? s l.prev fun m => { m with next := l.next }
  let s ← setLink? s l.next fun m => { m with prev := l.prev }
  let length ← shorten q.length
  let q := { q with
    head := if l.prev.isSome then q.head else l.next
    tail := if l.next.isSome then q.tail else l.prev
    length := length }
  setLink (s.setQueue l.segment q) i fun m => { m with prev := none, next := none }

/-- Moves a node to the front of a segment. -/
def moveTo (s : Slab V) (i : Nat) (segment : Segment) : Option (Slab V) := do
  pushFront (← unlink s i) i segment

/-- Puts an entry into a free slot, or into a new one when there is none. -/
def allocate (s : Slab V) (key : String) (value : V) (hash : UInt64) : Option (Nat × Slab V) :=
  match s.free with
  | i :: _ =>
    if i < s.slots.size ∧ i < s.links.size then some (s.allocate key value hash) else none
  | [] => if s.slots.size < s.links.size + 1 then some (s.allocate key value hash) else none

/-- Empties the slot of an unlinked node and gives back its entry. -/
def release (s : Slab V) (i : Nat) : Option (Option (String × V) × Slab V) :=
  if i < s.slots.size then some (s.release i) else none

/-! ## Operations -/

/-- Records an access to a key in the filter. -/
def record (s : Slab V) (key : String) : Option (Slab V) :=
  if s.filter.InRange (s.hash key) then some (s.record key) else none

/-- The filter's estimate for the node in a slot. -/
def estimate (s : Slab V) (i : Nat) : Option Nat := do
  let l ← s.links[i]?
  if s.filter.InRange l.hash then some (s.filter.estimate l.hash) else none

/-- Refreshes a node that was hit. -/
def touch (s : Slab V) (i : Nat) : Option (Slab V) := do
  let l ← s.links[i]?
  match l.segment with
  | .window => moveTo s i .window
  | .guarded => moveTo s i .guarded
  | .probation =>
    let s ← moveTo s i .guarded
    if s.guarded.capacity < s.guarded.length then
      let demoted ← s.guarded.tail
      moveTo s demoted .probation
    else some s

/-- Lets an unlinked candidate into the main part, or drops it. -/
def contend (s : Slab V) (candidate : Nat) : Option (Option (String × V) × Slab V) :=
  if s.probation.length + s.guarded.length < s.mainCapacity then do
    let s ← pushFront s candidate .probation
    some (none, s)
  else
    match s.victim? with
    | none => release s candidate
    | some victim => do
      let old ← estimate s victim
      let new ← estimate s candidate
      if old < new then
        let s ← unlink s victim
        let (dropped, s) ← release s victim
        let s ← pushFront s candidate .probation
        some (dropped, s)
      else release s candidate

/-- Looks a key up, records the access and refreshes the entry. -/
def get (s : Slab V) (key : String) : Option (Option V × Slab V) := do
  let s ← record s key
  match s.index[key]? with
  | none => some (none, s)
  | some i =>
    let s ← touch s i
    let slot ← s.slots[i]?
    some (slot.map (·.2), s)

/-- Looks a key up and leaves no trace. -/
def peek (s : Slab V) (key : String) : Option (Option V) :=
  match s.index[key]? with
  | none => some none
  | some i => do
    let slot ← s.slots[i]?
    some (slot.map (·.2))

/-- Puts a new key into the window and lets the window's overflow compete. -/
def insertNew (s : Slab V) (key : String) (value : V) :
    Option (Option (String × V) × Slab V) := do
  let s ← record s key
  let (i, s) ← allocate s key value (s.hash key)
  let s ← pushFront s i .window
  if s.window.length ≤ s.window.capacity then some (none, s)
  else
    let candidate ← s.window.tail
    let s ← unlink s candidate
    contend s candidate

/-- Puts an entry under a key. -/
def insert (s : Slab V) (key : String) (value : V) :
    Option (Option (String × V) × Slab V) :=
  match s.index[key]? with
  | none => insertNew s key value
  | some i => do
    let _ ← s.slots[i]?
    let s ← touch { s with slots := s.slots.set! i (some (key, value)) } i
    some (none, s)

/-- Removes a key and gives back its value. -/
def remove (s : Slab V) (key : String) : Option (Option V × Slab V) :=
  match s.index[key]? with
  | none => some (none, s)
  | some i => do
    let s ← unlink s i
    let (dropped, s) ← release s i
    some (dropped.map (·.2), s)

/-- A slab answers a call. -/
def call (s : Slab V) : MapCall V → Option (MapAnswer V × Slab V)
  | .insert key value => do
    let (dropped, s) ← insert s key value
    some (.dropped dropped, s)
  | .get key => do
    let (value, s) ← get s key
    some (.value value, s)
  | .peek key => do
    let value ← peek s key
    some (.value value, s)
  | .contains key => some (.present (s.contains key), s)
  | .remove key => do
    let (value, s) ← remove s key
    some (.value value, s)
  | .size => some (.count s.size, s)

/-- A slab answers one call after another. -/
def calls (s : Slab V) : List (MapCall V) → Option (List (MapAnswer V) × Slab V)
  | [] => some ([], s)
  | c :: rest => do
    let (answer, s) ← call s c
    let (answers, s) ← calls s rest
    some (answer :: answers, s)

/-! ## Checks that pass -/

section Passing

variable {s : Slab V} {i : Nat} {f : Link → Link}

/-- A link that there is can be changed. -/
lemma setLink_eq (hi : i < s.links.size) : setLink s i f = some (s.setLink i f) := if_pos hi

/-- A pointer to a link that there is can be followed. -/
lemma setLink?_eq {p : Option Nat} (hp : ∀ j, p = some j → j < s.links.size) :
    setLink? s p f = some (s.setLink? p f) := by
  cases p with
  | none => rfl
  | some j => exact setLink_eq (hp j rfl)

/-- The link of a slot that there is. -/
lemma getElem?_links (hi : i < s.links.size) : s.links[i]? = some (s.link i) := by
  rw [Slab.link, Array.getElem?_eq_getElem hi]
  rfl

/-- The node in a slot has an estimate. -/
lemma estimate_eq (hi : i < s.links.size) (hsized : s.filter.Sized) :
    estimate s i = some (s.filter.estimate (s.link i).hash) := by
  rw [estimate, getElem?_links hi, Option.bind_eq_bind, Option.bind_some,
    if_pos (hsized.inRange _)]

/-- An access can be recorded. -/
lemma record_eq (hsized : s.filter.Sized) (key : String) :
    record s key = some (s.record key) := by
  rw [record, if_pos (hsized.inRange _)]

end Passing

end Checked

namespace Slab.Layout

variable {s : Slab V} {lists : Segment → List Nat} {loose : List Nat} {i : Nat} {g : Segment}

/-- Putting in a loose node passes its checks. -/
lemma checked_pushFront (h : Layout s lists (i :: loose)) (g : Segment) :
    Checked.pushFront s i g = some (s.pushFront i g) := by
  have hhead : ∀ j, (s.queue g).head = some j → j < s.links.size := by
    intro j hj
    rw [h.head] at hj
    exact h.lt_of_mem (List.mem_of_head? hj)
  unfold Checked.pushFront
  dsimp only
  rw [Checked.setLink_eq (by simpa using h.lt_of_loose), Option.bind_eq_bind, Option.bind_some,
    Checked.setLink?_eq (by simpa using hhead)]
  rfl

/-- Taking out a node passes its checks. -/
lemma checked_unlink (h : Layout s lists loose) (hi : i ∈ lists g) :
    Checked.unlink s i = some (s.unlink i) := by
  have hlt := h.lt_of_mem hi
  obtain ⟨xs, ys, hsplit⟩ := List.append_of_mem hi
  have hchain := h.chain g
  rw [hsplit] at hchain
  obtain ⟨hprev, hnext⟩ := hchain.neighbours
  have hbefore : ∀ j, (s.link i).prev = some j → j < s.links.size := by
    intro j hj
    refine h.lt_of_mem (g := g) ?_
    rw [hsplit]
    exact List.mem_append_left _ (List.mem_of_getLast? (hprev ▸ hj))
  have hafter : ∀ j, (s.link i).next = some j → j < s.links.size := by
    intro j hj
    refine h.lt_of_mem (g := g) ?_
    rw [hsplit]
    exact List.mem_append_right _ (List.mem_cons_of_mem _ (List.mem_of_head? (hnext ▸ hj)))
  have hlength : 0 < (s.queue (s.link i).segment).length := by
    rw [h.segment_eq hi, h.length]
    exact List.length_pos_of_mem hi
  unfold Checked.unlink
  simp only [Checked.getElem?_links hlt, Option.bind_eq_bind, Option.bind_some]
  rw [Checked.setLink?_eq hbefore, Option.bind_some, Checked.setLink?_eq (by simpa using hafter),
    Option.bind_some, Checked.shorten, if_pos hlength, Option.bind_some,
    Checked.setLink_eq (by simpa using hlt)]
  rfl

/-- Moving a node passes its checks. -/
lemma checked_moveTo (h : Layout s lists loose) (hi : i ∈ lists g) (g' : Segment) :
    Checked.moveTo s i g' = some (s.moveTo i g') := by
  rw [Checked.moveTo, h.checked_unlink hi, Option.bind_eq_bind, Option.bind_some,
    (h.unlink hi).checked_pushFront g']
  rfl

/-- Emptying the slot of a loose node passes its check. -/
lemma checked_release (h : Layout s lists (i :: loose)) :
    Checked.release s i = some (s.release i) :=
  if_pos (h.links ▸ h.lt_of_loose)

/-- Finding a slot for an entry passes its checks. -/
lemma checked_allocate (h : Layout s lists loose) (key : String) (value : V) (hash : UInt64) :
    Checked.allocate s key value hash = some (s.allocate key value hash) := by
  unfold Checked.allocate
  cases hfree : s.free with
  | nil => exact if_pos (by rw [h.links]; exact Nat.lt_succ_self _)
  | cons i rest =>
    have hlt := ((h.mem_free i).mp (by rw [hfree]; exact List.mem_cons_self)).1
    exact if_pos ⟨hlt, h.links ▸ hlt⟩

/-- A list that is longer than it may be has a last node. -/
lemma exists_tail (h : Layout s lists loose) (hlong : (s.queue g).capacity < (s.queue g).length) :
    ∃ j, (s.queue g).tail = some j ∧ j ∈ lists g := by
  have hne : lists g ≠ [] := by
    intro hnil
    rw [h.length, hnil] at hlong
    exact Nat.not_lt_zero _ hlong
  obtain ⟨j, hj⟩ := Option.ne_none_iff_exists'.mp (mt List.getLast?_eq_none_iff.mp hne)
  exact ⟨j, (h.tail g).trans hj, List.mem_of_getLast? hj⟩

/-- Refreshing a node passes its checks. -/
lemma checked_touch (h : Layout s lists loose) (hi : i ∈ lists g) :
    Checked.touch s i = some (s.touch i) := by
  unfold Checked.touch Slab.touch
  simp only [Checked.getElem?_links (h.lt_of_mem hi), Option.bind_eq_bind, Option.bind_some]
  cases (s.link i).segment with
  | window => exact h.checked_moveTo hi .window
  | guarded => exact h.checked_moveTo hi .guarded
  | probation =>
    have hmoved := h.moveTo hi .guarded
    dsimp only
    rw [h.checked_moveTo hi, Option.bind_some]
    by_cases hlong : (s.moveTo i .guarded).guarded.capacity < (s.moveTo i .guarded).guarded.length
    · obtain ⟨demoted, htail, hmem⟩ := hmoved.exists_tail (g := .guarded) hlong
      have htail : (s.moveTo i .guarded).guarded.tail = some demoted := htail
      rw [if_pos hlong, if_pos hlong, htail, Option.bind_some]
      exact hmoved.checked_moveTo hmem .probation
    · rw [if_neg hlong, if_neg hlong]

/-- The victim of a competition is in the main part. -/
lemma exists_victim (h : Layout s lists loose) {victim : Nat} (hv : s.victim? = some victim) :
    ∃ g, victim ∈ lists g := by
  rw [victim?] at hv
  rcases Option.or_eq_some_iff.mp hv with htail | ⟨-, htail⟩
  · exact ⟨.probation, List.mem_of_getLast? ((h.tail .probation).symm.trans htail)⟩
  · exact ⟨.guarded, List.mem_of_getLast? ((h.tail .guarded).symm.trans htail)⟩

/-- A competition passes its checks. -/
lemma checked_contend (h : Layout s lists (i :: loose)) (hsized : s.filter.Sized) :
    Checked.contend s i = some (s.contend i) := by
  unfold Checked.contend Slab.contend
  by_cases hroom : s.probation.length + s.guarded.length < s.mainCapacity
  · rw [if_pos hroom, if_pos hroom, h.checked_pushFront]
    rfl
  · rw [if_neg hroom, if_neg hroom]
    cases hv : s.victim? with
    | none => exact h.checked_release
    | some victim =>
      obtain ⟨g, hmem⟩ := h.exists_victim hv
      dsimp only
      rw [Checked.estimate_eq (h.lt_of_mem hmem) hsized, Checked.estimate_eq h.lt_of_loose hsized]
      simp only [Option.bind_eq_bind, Option.bind_some]
      split
      · have hunlinked := h.unlink hmem
        obtain ⟨⟨key, value⟩, he⟩ :=
          Option.isSome_iff_exists.mp ((hunlinked.occupied victim).mpr (.inl List.mem_cons_self))
        have hreleased := hunlinked.release he
        rw [h.checked_unlink hmem, Option.bind_some, hunlinked.checked_release, Option.bind_some,
          hreleased.checked_pushFront]
        rfl
      · exact h.checked_release

end Slab.Layout

namespace Slab.Sound

variable {s : Slab V}

/-- A slot to which the index leads. -/
lemma getElem?_slots (h : Sound s) {key : String} {i : Nat} (hi : s.index[key]? = some i) :
    s.slots[i]? = some (s.entryAt i) := by
  obtain ⟨lists, hlayout, -⟩ := h
  obtain ⟨value, he⟩ := (hlayout.index key i).mp hi
  rw [entryAt, Array.getElem?_eq_getElem (Layout.lt_of_entry he)]
  rfl

/-- Refreshing the node of a key passes its checks. -/
lemma checked_touch (h : Sound s) {key : String} {i : Nat} (hi : s.index[key]? = some i) :
    Checked.touch s i = some (s.touch i) := by
  obtain ⟨lists, hlayout, -⟩ := h
  obtain ⟨g, -, hmem, -⟩ := exists_mem hlayout hi
  exact hlayout.checked_touch hmem

/-- Looking up without a trace passes its check. -/
lemma checked_peek (h : Sound s) (key : String) : Checked.peek s key = some (s.peek key) := by
  unfold Checked.peek Slab.peek
  cases hi : s.index[key]? with
  | none => rfl
  | some i =>
    dsimp only
    rw [h.getElem?_slots hi]
    rfl

/-- Looking up passes its checks. -/
lemma checked_get (h : Sound s) (hsized : s.filter.Sized) (key : String) :
    Checked.get s key = some (s.get key) := by
  have hrecord := h.record key
  unfold Checked.get Slab.get
  rw [Checked.record_eq hsized, Option.bind_eq_bind, Option.bind_some]
  dsimp only
  cases hi : (s.record key).index[key]? with
  | none => rfl
  | some i =>
    obtain ⟨hsound, hr⟩ := hrecord.touch hi
    have hindex : ((s.record key).touch i).index[key]? = some i := by rw [hr.index, hi]
    dsimp only
    rw [hrecord.checked_touch hi, Option.bind_some, hsound.getElem?_slots hindex]
    rfl

/-- Removing passes its checks. -/
lemma checked_remove (h : Sound s) (key : String) : Checked.remove s key = some (s.remove key) := by
  unfold Checked.remove Slab.remove
  cases hi : s.index[key]? with
  | none => rfl
  | some i =>
    obtain ⟨lists, hlayout, -⟩ := h
    obtain ⟨g, -, hmem, -⟩ := exists_mem hlayout hi
    dsimp only
    rw [hlayout.checked_unlink hmem, Option.bind_eq_bind, Option.bind_some,
      (hlayout.unlink hmem).checked_release]
    rfl

/-- Inserting a new key passes its checks. -/
lemma checked_insertNew (h : Sound s) (hsized : s.filter.Sized) {key : String}
    (hnew : s.index[key]? = none) (value : V) :
    Checked.insertNew s key value = some (s.insertNew key value) := by
  obtain ⟨lists, hlayout, hfits⟩ := h.record key
  have hextended := hlayout.extended key value
  have hloose := hlayout.extend (by rw [index_record, hnew]) hextended
  have hfilter : (s.record key).filter.Sized := by
    simp only [Slab.record]
    exact hsized.record (s.hash key)
  unfold Checked.insertNew Slab.insertNew
  simp only [Checked.record_eq hsized, Option.bind_eq_bind, Option.bind_some,
    hlayout.checked_allocate]
  generalize (s.record key).allocate key value ((s.record key).hash key) = fresh
    at hextended hloose
  obtain ⟨i, s'⟩ := fresh
  dsimp only at hextended hloose ⊢
  have hentered := hloose.pushFront .window
  rw [hloose.checked_pushFront, Option.bind_some]
  by_cases hroom : (s'.pushFront i .window).window.length ≤
      (s'.pushFront i .window).window.capacity
  · rw [if_pos hroom, if_pos hroom]
  · obtain ⟨candidate, htail, hmem⟩ :=
      hentered.exists_tail (g := .window) (Nat.lt_of_not_le hroom)
    have htail : (s'.pushFront i .window).window.tail = some candidate := htail
    have hsized' : ((s'.pushFront i .window).unlink candidate).filter.Sized := by
      rw [(Rearranged.unlink _ candidate).filter, (Rearranged.pushFront s' i .window).filter,
        hextended.filter]
      exact hfilter
    rw [if_neg hroom, if_neg hroom, htail, Option.bind_some, hentered.checked_unlink hmem,
      Option.bind_some]
    exact (hentered.unlink hmem).checked_contend hsized'

/-- Inserting passes its checks. -/
lemma checked_insert (h : Sound s) (hsized : s.filter.Sized) (key : String) (value : V) :
    Checked.insert s key value = some (s.insert key value) := by
  unfold Checked.insert Slab.insert
  cases hi : s.index[key]? with
  | none => exact h.checked_insertNew hsized hi value
  | some i =>
    have hslot := h.getElem?_slots hi
    obtain ⟨lists, hlayout, -⟩ := id h
    obtain ⟨old, he⟩ := (hlayout.index key i).mp hi
    have hreplaced := (h.replace he value).1
    dsimp only
    rw [hslot, Option.bind_eq_bind, Option.bind_some, hreplaced.checked_touch hi]
    rfl

/-- **Every call** passes its checks: no operation of a sound slab leaves a table. -/
lemma checked_call (h : Sound s) (hsized : s.filter.Sized) (c : MapCall V) :
    Checked.call s c = some (s.call c) := by
  cases c with
  | insert key value =>
    rw [Checked.call, h.checked_insert hsized key value, Option.bind_eq_bind, Option.bind_some]
    rfl
  | get key =>
    rw [Checked.call, h.checked_get hsized key, Option.bind_eq_bind, Option.bind_some]
    rfl
  | peek key =>
    rw [Checked.call, h.checked_peek key, Option.bind_eq_bind, Option.bind_some]
    rfl
  | contains key => rfl
  | remove key =>
    rw [Checked.call, h.checked_remove key, Option.bind_eq_bind, Option.bind_some]
    rfl
  | size => rfl

end Slab.Sound

end LayeredCache.Eviction
