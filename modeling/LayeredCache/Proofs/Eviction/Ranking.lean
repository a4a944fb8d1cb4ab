import LayeredCache.Eviction.Ranked
import LayeredCache.Proofs.Eviction.Representation

/-!
# A slab is three lists

The nodes, links and free slots of a slab are a way to keep three lists of entries, the most recent
first. Seen as these lists, a slab does on every call what the policy says on plain lists: it
answers the same, it drops the same entries, and afterwards the lists are the same again, the
filter included. So the policy can be read off the lists, and nothing about slots, pointers or
their reuse shows in what a slab does.

## Main definitions

* `Slab.ranked` — the three lists of a slab whose segments visit given slots.
* `Ranked.call`, `Ranked.calls` — the lists answer one call, or several.

## Main results

* `Slab.Layout.ranked_touch`, `Slab.Layout.ranked_contend`, `Slab.Layout.ranked_insertNew` — a hit,
  a competition and a new key do to the lists what the policy says.
* `Slab.Layout.ranked_call` — so does every call.
* `Slab.calls_ranked` — every sequence of calls to a new slab is answered by the lists.

## Implementation notes

Three lists are seen as one function of the segment (`Ranked.list`, `Ranked.setList`), so that a
move of a slot (`putFront`, `takeOut`) has one lemma for all segments.
-/

set_option autoImplicit false

namespace LayeredCache.Eviction

open LayeredCache.Frequency

variable {V : Type}

namespace Ranked

/-! ## The lists by segment -/

/-- The list of a segment. -/
def list (r : Ranked V) : Segment → List (String × V)
  | .window => r.window
  | .probation => r.probation
  | .guarded => r.guarded

/-- Replaces the list of a segment. -/
def setList (r : Ranked V) (g : Segment) (entries : List (String × V)) : Ranked V :=
  match g with
  | .window => { r with window := entries }
  | .probation => { r with probation := entries }
  | .guarded => { r with guarded := entries }

/-! ## Calls -/

/-- The lists answer a call. -/
def call (r : Ranked V) : MapCall V → MapAnswer V × Ranked V
  | .insert key value =>
    let (dropped, r) := r.insert key value
    (.dropped dropped, r)
  | .get key =>
    let (value, r) := r.get key
    (.value value, r)
  | .peek key => (.value (r.peek key), r)
  | .contains key => (.present (r.contains key), r)
  | .remove key =>
    let (value, r) := r.remove key
    (.value value, r)
  | .size => (.count r.size, r)

/-- The lists answer one call after another. -/
def calls (r : Ranked V) : List (MapCall V) → List (MapAnswer V) × Ranked V
  | [] => ([], r)
  | call :: rest =>
    let (answer, r) := r.call call
    let (answers, r) := r.calls rest
    (answer :: answers, r)

/-! ## What the lists look at -/

variable {r : Ranked V} {key : String} {value : V} {g : Segment}

/-- Nothing is left out of a list that does not have the key. -/
lemma without_of_absent {entries : List (String × V)} (h : find? key entries = none) :
    without key entries = entries := by
  refine List.filter_eq_self.mpr fun e he => ?_
  simpa using List.find?_eq_none.mp h e he

/-- The filter plays no part in a look-up. -/
lemma peek_record (r : Ranked V) (key key' : String) :
    (r.record key).peek key' = r.peek key' := by
  simp only [peek, entries, record]

/-- **A hit does not look at the value** that it replaces. -/
lemma touch_setList (hfind : ∀ g', (find? key (r.list g')).isSome = decide (g' = g))
    {entries : List (String × V)} (hentries : (find? key entries).isSome)
    (hwithout : without key entries = without key (r.list g)) (value : V) :
    (r.setList g entries).touch key value = r.touch key value := by
  have hwindow := hfind .window
  have hguarded := hfind .guarded
  cases g <;> simp_all [touch, setList, list]

/-- The lists after a new key came into the window, before the window's overflow competes. -/
def entered (r : Ranked V) (key : String) (value : V) : Ranked V :=
  let r := r.record key
  { r with window := (key, value) :: r.window }

lemma insert_of_absent (h : r.peek key = none) (value : V) :
    r.insert key value =
      if (r.entered key value).window.length ≤ (r.entered key value).windowCapacity then
        (none, r.entered key value)
      else
        match (r.entered key value).window.getLast? with
        | some candidate =>
          ((r.entered key value).setList .window
            (r.entered key value).window.dropLast).contend candidate
        | none => (none, r.entered key value) := by
  rw [insert, contains, h]
  unfold entered
  generalize r.record key = r'
  rfl

end Ranked

namespace Slab

variable {s s' : Slab V} {lists : Segment → List Nat} {loose : List Nat} {i : Nat} {g : Segment}
  {key : String} {value : V} {e : String × V}

/-! ## The lists of a slab -/

/-- The entries that some slots hold. -/
def entriesAt (s : Slab V) (xs : List Nat) : List (String × V) := xs.filterMap s.entryAt

/-- The three lists of a slab whose segments visit the slots `lists`. -/
def ranked (s : Slab V) (lists : Segment → List Nat) : Ranked V where
  window := s.entriesAt (lists .window)
  probation := s.entriesAt (lists .probation)
  guarded := s.entriesAt (lists .guarded)
  windowCapacity := s.window.capacity
  guardedCapacity := s.guarded.capacity
  mainCapacity := s.mainCapacity
  filter := s.filter
  hash := s.hash

@[simp] lemma list_ranked (s : Slab V) (lists : Segment → List Nat) (g : Segment) :
    (s.ranked lists).list g = s.entriesAt (lists g) := by
  cases g <;> rfl

lemma entriesAt_cons (hi : s.entryAt i = some e) (xs : List Nat) :
    s.entriesAt (i :: xs) = e :: s.entriesAt xs := by
  simp [entriesAt, hi]

lemma entriesAt_append (s : Slab V) (xs ys : List Nat) :
    s.entriesAt (xs ++ ys) = s.entriesAt xs ++ s.entriesAt ys :=
  List.filterMap_append

/-- Only the slots that are listed matter. -/
lemma entriesAt_congr {xs : List Nat} (h : ∀ j ∈ xs, s'.entryAt j = s.entryAt j) :
    s'.entriesAt xs = s.entriesAt xs :=
  List.filterMap_congr h

/-- A slab has the same lists when its links change. -/
lemma Rearranged.ranked (h : Rearranged s s') (lists : Segment → List Nat) :
    s'.ranked lists = s.ranked lists := by
  have hentries : ∀ xs, s'.entriesAt xs = s.entriesAt xs := fun xs =>
    entriesAt_congr fun j _ => h.entryAt j
  have hwindow : s'.window.capacity = s.window.capacity := h.capacity .window
  have hguarded : s'.guarded.capacity = s.guarded.capacity := h.capacity .guarded
  simp only [Slab.ranked, hentries, hwindow, hguarded, h.mainCapacity, h.filter, h.hash]

/-- **A slot that is put in** puts its entry before the others of the segment. -/
lemma ranked_putFront (hi : s.entryAt i = some e) (lists : Segment → List Nat) (g : Segment) :
    s.ranked (putFront lists i g) =
      (s.ranked lists).setList g (e :: (s.ranked lists).list g) := by
  cases g <;> simp [ranked, putFront, Ranked.setList, Ranked.list, entriesAt_cons hi]

namespace Layout

/-! ## Entries and slots -/

/-- A key is in one slot only. -/
lemma slot_eq (h : Layout s lists loose) {j : Nat} {value' : V}
    (hi : s.entryAt i = some (key, value)) (hj : s.entryAt j = some (key, value')) : i = j := by
  have hindex := (h.index key i).mpr ⟨value, hi⟩
  rw [(h.index key j).mpr ⟨value', hj⟩] at hindex
  exact (Option.some.inj hindex).symm

/-- The slots of the segments hold entries. -/
lemma exists_entry (h : Layout s lists loose) (hi : i ∈ lists g) :
    ∃ key value, s.entryAt i = some (key, value) := by
  obtain ⟨⟨key, value⟩, he⟩ :=
    Option.isSome_iff_exists.mp ((h.occupied i).mpr (.inr ⟨g, hi⟩))
  exact ⟨key, value, he⟩

/-- The slots of a segment hold an entry each. -/
lemma map_entryAt (h : Layout s lists loose) (g : Segment) :
    (lists g).map s.entryAt = (s.entriesAt (lists g)).map some := by
  have hall : ∀ xs : List Nat, (∀ j ∈ xs, j ∈ lists g) →
      xs.map s.entryAt = (s.entriesAt xs).map some := by
    intro xs hxs
    induction xs with
    | nil => rfl
    | cons j xs ih =>
      obtain ⟨key, value, hj⟩ := h.exists_entry (hxs j List.mem_cons_self)
      rw [entriesAt_cons hj, List.map_cons, List.map_cons, hj,
        ih fun k hk => hxs k (List.mem_cons_of_mem _ hk)]
  exact hall _ fun _ hj => hj

/-- The list of a segment is as long as the segment. -/
@[simp] lemma length_entriesAt (h : Layout s lists loose) (g : Segment) :
    (s.entriesAt (lists g)).length = (lists g).length := by
  simpa using (congrArg List.length (h.map_entryAt g)).symm

/-- The entry under a key is found where its slot is listed. -/
lemma find?_entriesAt (h : Layout s lists loose) (hi : s.entryAt i = some (key, value))
    (xs : List Nat) :
    Ranked.find? key (s.entriesAt xs) = if i ∈ xs then some (key, value) else none := by
  induction xs with
  | nil => simp [entriesAt, Ranked.find?]
  | cons j xs ih =>
    by_cases hij : i = j
    · subst hij
      simp [entriesAt_cons hi, Ranked.find?]
    · have hmem : i ∈ j :: xs ↔ i ∈ xs := by simp [hij]
      simp only [hmem]
      rw [← ih]
      cases hj : s.entryAt j with
      | none => simp [entriesAt, hj]
      | some e =>
        obtain ⟨key', value'⟩ := e
        have hkey : key' ≠ key := by
          rintro rfl
          exact hij (h.slot_eq hi hj)
        simp [entriesAt_cons hj, Ranked.find?, hkey]

/-- A key that has no slot is found nowhere. -/
lemma find?_entriesAt_of_absent (h : Layout s lists loose) (hkey : s.index[key]? = none)
    (xs : List Nat) : Ranked.find? key (s.entriesAt xs) = none := by
  refine List.find?_eq_none.mpr ?_
  rintro ⟨key', value'⟩ hmem hkey'
  obtain ⟨j, -, hj⟩ := List.mem_filterMap.mp hmem
  obtain rfl : key' = key := by simpa using hkey'
  rw [(h.index key' j).mpr ⟨value', hj⟩] at hkey
  cases hkey

/-- **Taking a slot out** takes the entry under its key out, and no other. -/
lemma entriesAt_erase (h : Layout s lists loose) (hi : s.entryAt i = some (key, value))
    {xs : List Nat} (hxs : xs.Nodup) :
    s.entriesAt (xs.erase i) = Ranked.without key (s.entriesAt xs) := by
  rw [hxs.erase_eq_filter, entriesAt, entriesAt, Ranked.without, List.filterMap_filter,
    List.filter_filterMap]
  refine List.filterMap_congr fun j _ => ?_
  cases hj : s.entryAt j with
  | none => simp
  | some e =>
    obtain ⟨key', value'⟩ := e
    by_cases hij : j = i
    · subst hij
      obtain ⟨rfl, rfl⟩ : key = key' ∧ value = value' := by simpa [hi] using hj
      simp [Option.filter]
    · have hkey : key' ≠ key := by
        rintro rfl
        exact hij (h.slot_eq hj hi)
      simp [Option.filter, hij, hkey]

/-- Nothing is taken out of the segments that do not have the slot. -/
lemma takeOut_of_ne (h : Layout s lists loose) (hi : i ∈ lists g) {g' : Segment} (hg : g' ≠ g) :
    takeOut lists i g' = lists g' :=
  List.erase_of_not_mem fun hi' => hg (h.eq_of_mem hi' hi)

/-- **A slot that is taken out** takes its entry out of the list of its segment. -/
lemma ranked_takeOut (h : Layout s lists loose) (hi : i ∈ lists g) :
    s.ranked (takeOut lists i) =
      (s.ranked lists).setList g (s.entriesAt ((lists g).erase i)) := by
  have hother := fun g' (hg : g' ≠ g) => h.takeOut_of_ne hi hg
  cases g <;> simp [ranked, Ranked.setList, hother] <;> rfl

/-- The last slot of a segment holds the last entry of its list. -/
lemma entriesAt_getLast? (h : Layout s lists loose) (hlast : (lists g).getLast? = some i)
    (hi : s.entryAt i = some e) :
    (s.entriesAt (lists g)).getLast? = some e ∧
      s.entriesAt ((lists g).erase i) = (s.entriesAt (lists g)).dropLast := by
  obtain ⟨xs, hxs⟩ := List.getLast?_eq_some_iff.mp hlast
  have hnodup := h.nodup g
  rw [hxs, List.nodup_append] at hnodup
  have hmem : i ∉ xs := fun hmem => hnodup.2.2 i hmem i (by simp) rfl
  have hlist : s.entriesAt (lists g) = s.entriesAt xs ++ [e] := by
    rw [hxs, entriesAt_append, entriesAt_cons hi]
    rfl
  refine ⟨by rw [hlist, List.getLast?_concat], ?_⟩
  rw [hlist, List.dropLast_concat, hxs, List.erase_append_right _ hmem]
  simp

/-- A segment without slots has an empty list. -/
lemma entriesAt_getLast?_none (hlast : (lists g).getLast? = none) :
    (s.entriesAt (lists g)).getLast? = none := by
  rw [List.getLast?_eq_none_iff.mp hlast]
  rfl

/-! ## Look-ups -/

/-- All entries of the lists. -/
lemma entries_ranked (s : Slab V) (lists : Segment → List Nat) :
    (s.ranked lists).entries =
      s.entriesAt (lists .window ++ lists .probation ++ lists .guarded) := by
  rw [entriesAt_append, entriesAt_append]
  rfl

/-- The lists have the entries of the slab. -/
lemma ranked_peek (h : Layout s lists []) (key : String) :
    (s.ranked lists).peek key = s.peek key := by
  rw [Ranked.peek, entries_ranked]
  cases hi : s.index[key]? with
  | none =>
    rw [h.find?_entriesAt_of_absent hi, Slab.peek, hi]
    rfl
  | some i =>
    obtain ⟨g, value, hmem, he⟩ := Sound.exists_mem h hi
    rw [h.find?_entriesAt he, if_pos ((mem_lists_iff lists i).mpr ⟨g, hmem⟩),
      h.peek_of_entry he]
    rfl

/-- The lists have as many entries as the slab. -/
lemma ranked_size (h : Layout s lists []) : (s.ranked lists).size = s.size := by
  rw [Sound.size_eq_total h, Ranked.size, Ranked.entries]
  simp [Slab.ranked, h.length_entriesAt, total, Nat.add_assoc]

/-! ## A hit -/

/-- Sending the last guarded slot back on probation sends the last guarded entry back. -/
lemma ranked_demote (h : Layout s lists []) :
    s.ranked (if s.guarded.capacity < (lists .guarded).length then
        match (lists .guarded).getLast? with
        | some demoted => putFront (takeOut lists demoted) demoted .probation
        | none => lists
      else lists) = (s.ranked lists).demote := by
  have hlength : (s.ranked lists).guarded.length = (lists .guarded).length :=
    h.length_entriesAt .guarded
  rw [Ranked.demote, hlength]
  change _ = if s.guarded.capacity < (lists .guarded).length then _ else s.ranked lists
  split
  · cases hlast : (lists .guarded).getLast? with
    | none =>
      have hnone : (s.ranked lists).guarded.getLast? = none := entriesAt_getLast?_none hlast
      rw [hnone]
    | some demoted =>
      have hmem := List.mem_of_getLast? hlast
      obtain ⟨key, value, he⟩ := h.exists_entry hmem
      obtain ⟨hentry, hdrop⟩ := h.entriesAt_getLast? hlast he
      have hsome : (s.ranked lists).guarded.getLast? = some (key, value) := hentry
      rw [hsome]
      dsimp only
      rw [ranked_putFront he, h.ranked_takeOut hmem, hdrop]
      rfl
  · rfl

/-- The entry under a key is found in the list of its segment only. -/
lemma find?_list (h : Layout s lists loose) (hi : i ∈ lists g)
    (he : s.entryAt i = some (key, value)) (g' : Segment) :
    (Ranked.find? key ((s.ranked lists).list g')).isSome = decide (g' = g) := by
  rw [list_ranked, h.find?_entriesAt he]
  by_cases hg : g' = g
  · simp [hg, hi]
  · have hout : i ∉ lists g' := fun hi' => hg (h.eq_of_mem hi' hi)
    simp [hg, hout]

/-- **A hit** does to the lists what the policy says.

**Proof sketch.** By the segment of the node. In the window and among the guarded ones the entry
moves to the front of its list. On probation it moves to the front of the guarded list, and when
that is too long then, the last guarded entry goes back (`ranked_demote`). -/
lemma ranked_touch (h : Layout s lists []) (hi : i ∈ lists g)
    (he : s.entryAt i = some (key, value)) :
    (s.touch i).ranked (refreshed lists s.guarded.capacity g i) =
      (s.ranked lists).touch key value := by
  have hwindow : (Ranked.find? key (s.ranked lists).window).isSome = decide (.window = g) :=
    h.find?_list hi he .window
  have hguarded : (Ranked.find? key (s.ranked lists).guarded).isSome = decide (.guarded = g) :=
    h.find?_list hi he .guarded
  have hmoved : ∀ g', s.ranked (putFront (takeOut lists i) i g') =
      ((s.ranked lists).setList g (Ranked.without key (s.entriesAt (lists g)))).setList g'
        ((key, value) ::
          ((s.ranked lists).setList g (Ranked.without key (s.entriesAt (lists g)))).list g') := by
    intro g'
    rw [ranked_putFront he, h.ranked_takeOut hi, h.entriesAt_erase he (h.nodup g)]
  rw [(Rearranged.touch s i).ranked, Ranked.touch, hwindow, hguarded]
  cases g with
  | window => exact hmoved .window
  | guarded => exact hmoved .guarded
  | probation =>
    have hr := Rearranged.moveTo s i .guarded
    have hcapacity : (s.moveTo i .guarded).guarded.capacity = s.guarded.capacity :=
      hr.capacity .guarded
    have hdemote := (h.moveTo hi .guarded).ranked_demote
    rw [hr.ranked, hr.ranked, hcapacity, hmoved .guarded] at hdemote
    exact hdemote

/-! ## A competition -/

/-- Releasing a loose node gives its entry back and leaves the lists alone. -/
lemma ranked_release (h : Layout s lists (i :: loose)) (he : s.entryAt i = some e) :
    (s.release i).1 = some e ∧ (s.release i).2.ranked lists = s.ranked lists := by
  have hentries : ∀ g, (s.release i).2.entriesAt (lists g) = s.entriesAt (lists g) := by
    intro g
    refine entriesAt_congr fun j hj => ?_
    rw [entryAt_release he, if_neg]
    rintro rfl
    exact h.apart j List.mem_cons_self g hj
  simp only [Slab.ranked, hentries]
  simp only [Slab.release, he, true_and]

/-- Whether segments fit does not depend on the slots that they visit. -/
lemma fits_of_fits (h : Layout s lists loose) {lists' : Segment → List Nat} {loose' : List Nat}
    (h' : Layout s lists' loose') (hfits : Fits s lists') : Fits s lists := by
  have hlength : ∀ g, (lists g).length = (lists' g).length := fun g =>
    (h.length g).symm.trans (h'.length g)
  refine hfits.of_lengths (fun _ => rfl) rfl ?_ ?_ ?_ <;> simp only [hlength]
  · exact hfits.window
  · exact hfits.guarded
  · exact hfits.main

/-- **A competition** does to the lists what the policy says.

**Proof sketch.** With room the candidate is put on probation. Without room the victim is the last
slot on probation (`Slab.Layout.victim?_eq`), which holds the last entry, and the nodes remember
the hashes of their keys, so that both sides compare the same estimates. -/
lemma ranked_contend (h : Layout s lists [i]) (hfits : Fits s lists) (he : s.entryAt i = some e) :
    ∃ lists', Layout (s.contend i).2 lists' [] ∧
      (s.contend i).1 = ((s.ranked lists).contend e).1 ∧
      (s.contend i).2.ranked lists' = ((s.ranked lists).contend e).2 := by
  have hlength : (s.ranked lists).probation.length + (s.ranked lists).guarded.length =
      (lists .probation).length + (lists .guarded).length :=
    congrArg₂ _ (h.length_entriesAt .probation) (h.length_entriesAt .guarded)
  have hcapacity : (s.ranked lists).mainCapacity = s.mainCapacity := rfl
  obtain ⟨key, value⟩ := e
  rw [Ranked.contend, hlength, hcapacity]
  by_cases hroom : (lists .probation).length + (lists .guarded).length < s.mainCapacity
  · rw [contend_of_room h hroom, if_pos hroom]
    refine ⟨_, h.pushFront .probation, rfl, ?_⟩
    rw [(Rearranged.pushFront s i _).ranked, ranked_putFront he]
    rfl
  · have hprobation : s.probation.length = _ := h.length .probation
    have hguarded : s.guarded.length = _ := h.length .guarded
    have hreleased := h.release he
    obtain ⟨hanswer, hranked⟩ := h.ranked_release he
    unfold Slab.contend
    rw [if_neg (by omega), if_neg hroom, h.victim?_eq hfits hroom]
    cases hlast : (lists .probation).getLast? with
    | none =>
      have hnone : (s.ranked lists).probation.getLast? = none := entriesAt_getLast?_none hlast
      rw [hnone]
      exact ⟨lists, hreleased, hanswer, hranked⟩
    | some victim =>
      have hmem := List.mem_of_getLast? hlast
      obtain ⟨key', value', hv⟩ := h.exists_entry hmem
      obtain ⟨hentry, hdrop⟩ := h.entriesAt_getLast? hlast hv
      have hsome : (s.ranked lists).probation.getLast? = some (key', value') := hentry
      rw [hsome]
      dsimp only
      rw [h.hash victim key' value' hv, h.hash i key value he]
      by_cases hwins : s.filter.estimate (s.hash key') < s.filter.estimate (s.hash key)
      · rw [if_pos hwins, if_pos (by exact hwins)]
        have hr := Rearranged.unlink s victim
        have hunlinked := h.unlink hmem
        have hv' : (s.unlink victim).entryAt victim = some (key', value') := by
          rw [hr.entryAt, hv]
        obtain ⟨hanswer', hranked'⟩ := hunlinked.ranked_release hv'
        have hfree := hunlinked.release hv'
        have he' : ((s.unlink victim).release victim).2.entryAt i = some (key, value) := by
          have hne : i ≠ victim := by
            rintro rfl
            exact h.apart i List.mem_cons_self _ hmem
          rw [entryAt_release hv', if_neg hne, hr.entryAt, he]
        refine ⟨_, hfree.pushFront .probation, hanswer', ?_⟩
        rw [(Rearranged.pushFront _ i _).ranked, ranked_putFront he', hranked', hr.ranked,
          h.ranked_takeOut hmem, hdrop]
        rfl
      · rw [if_neg hwins, if_neg (by exact hwins)]
        exact ⟨lists, hreleased, hanswer, hranked⟩

/-! ## A new key -/

/-- An allocation keeps the filter and the hash function. -/
lemma filter_allocate (s : Slab V) (key : String) (value : V) (hash : UInt64) :
    (s.allocate key value hash).2.filter = s.filter ∧
      (s.allocate key value hash).2.hash = s.hash := by
  unfold allocate
  split <;> exact ⟨rfl, rfl⟩

@[simp] lemma filter_record (s : Slab V) (key : String) :
    (s.record key).filter = s.filter.record (s.hash key) := by
  simp only [record]

@[simp] lemma hash_record (s : Slab V) (key : String) : (s.record key).hash = s.hash := by
  simp only [record]

/-- A key that comes in is recorded. -/
lemma filter_entered (s : Slab V) (key : String) (value : V) :
    (s.entered key value).filter = s.filter.record (s.hash key) ∧
      (s.entered key value).hash = s.hash := by
  obtain ⟨hfilter, hhash⟩ := filter_allocate (s.record key) key value (s.hash key)
  have hr := Rearranged.pushFront ((s.record key).allocate key value (s.hash key)).2
    ((s.record key).allocate key value (s.hash key)).1 .window
  rw [filter_record] at hfilter
  rw [hash_record] at hhash
  exact ⟨hr.filter.trans hfilter, hr.hash.trans hhash⟩

/-- A key that comes in is recorded, and its entry is put at the front of the window. -/
lemma ranked_entered (he : Entered s lists key value i (s.entered key value)) :
    (s.entered key value).ranked (putFront lists i .window) =
      (s.ranked lists).entered key value := by
  have hentry : (s.entered key value).entryAt i = some (key, value) := by rw [he.entry, if_pos rfl]
  have hentries : ∀ g, (s.entered key value).entriesAt (lists g) = s.entriesAt (lists g) := by
    intro g
    refine entriesAt_congr fun j hj => ?_
    rw [he.entry, if_neg]
    rintro rfl
    exact he.fresh g hj
  have hwindow : (s.entered key value).window.capacity = s.window.capacity := he.capacity .window
  have hguarded : (s.entered key value).guarded.capacity = s.guarded.capacity :=
    he.capacity .guarded
  obtain ⟨hfilter, hhash⟩ := filter_entered s key value
  rw [ranked_putFront hentry]
  simp only [Slab.ranked, hentries, hwindow, hguarded, he.mainCapacity, hfilter, hhash]
  rfl

/-- **A new key** does to the lists what the policy says.

**Proof sketch.** The key comes into the window (`ranked_entered`). When the window is too long
then, its last slot, which holds its last entry, is taken out and competes (`ranked_contend`). -/
lemma ranked_insertNew (h : Layout s lists []) (hfits : Fits s lists)
    (hnew : s.index[key]? = none) (value : V) :
    ∃ lists', Layout (s.insertNew key value).2 lists' [] ∧
      (s.insertNew key value).1 = ((s.ranked lists).insert key value).1 ∧
      (s.insertNew key value).2.ranked lists' = ((s.ranked lists).insert key value).2 := by
  obtain ⟨i, he⟩ := h.entered hnew value
  have hentered := ranked_entered he
  have habsent : (s.ranked lists).peek key = none := by
    rw [h.ranked_peek, Slab.peek, hnew]
    rfl
  have hlong : ((s.ranked lists).entered key value).window.length = (lists .window).length + 1 := by
    rw [← h.length_entriesAt]
    rfl
  have hwindow : ((s.ranked lists).entered key value).windowCapacity = s.window.capacity := by
    simp only [Ranked.entered, Ranked.record, ranked]
  rw [Ranked.insert_of_absent habsent, hlong, hwindow]
  by_cases hroom : (lists .window).length < s.window.capacity
  · obtain ⟨heq, -⟩ := h.insertNew_of_room hfits hnew value hroom
    rw [heq, if_pos (Nat.add_one_le_iff.mpr hroom)]
    exact ⟨_, he.layout, rfl, hentered⟩
  · obtain ⟨c, lists', heq, hlast, hloose, hfits', -, -⟩ :=
      h.insertNew_of_full hfits hnew value hroom
    have hlast' : (putFront lists i .window .window).getLast? = some c := by
      simp [putFront, List.getLast?_cons, hlast]
    have hmem := List.mem_of_getLast? hlast'
    obtain ⟨key', value', hc⟩ := he.layout.exists_entry hmem
    obtain ⟨hentry, hdrop⟩ := he.layout.entriesAt_getLast? hlast' hc
    have hout := he.layout.unlink hmem
    have hr := Rearranged.unlink (s.entered key value) c
    obtain ⟨lists'', hlayout, hanswer, hranked⟩ :=
      hout.ranked_contend (hout.fits_of_fits hloose hfits') (by rw [hr.entryAt, hc])
    have hsome : ((s.ranked lists).entered key value).window.getLast? = some (key', value') := by
      rw [← hentered]
      exact hentry
    have hcandidate : ((s.entered key value).unlink c).ranked
        (takeOut (putFront lists i .window) c) =
          ((s.ranked lists).entered key value).setList .window
            ((s.ranked lists).entered key value).window.dropLast := by
      rw [hr.ranked, he.layout.ranked_takeOut hmem, hdrop, hentered, ← list_ranked, hentered]
      rfl
    rw [if_neg (mt Nat.add_one_le_iff.mp hroom), heq, hsome]
    rw [hcandidate] at hanswer hranked
    exact ⟨lists'', hlayout, hanswer, hranked⟩

/-! ## Every call -/

/-- A key that is present gets its new value by a hit.

**Proof sketch.** The new value is put into the slot, and then the slot is hit (`ranked_touch`). A
hit does not look at the value that it replaces (`Ranked.touch_setList`). -/
lemma ranked_replace (h : Layout s lists []) {old : V} (hi : i ∈ lists g)
    (he : s.entryAt i = some (key, old)) (value : V) :
    ∃ lists', Layout (({ s with slots := s.slots.set! i (some (key, value)) } : Slab V).touch i)
        lists' [] ∧
      (({ s with slots := s.slots.set! i (some (key, value)) } : Slab V).touch i).ranked lists' =
        (s.ranked lists).touch key value := by
  have hentry := fun j => entryAt_setSlot s i j (some (key, value)) (lt_of_entry he)
  have h' := h.replace he value
  generalize hs' : ({ s with slots := s.slots.set! i (some (key, value)) } : Slab V) = s' at *
  have he' : s'.entryAt i = some (key, value) := by rw [hentry, if_pos rfl]
  have hentries : ∀ xs, i ∉ xs → s'.entriesAt xs = s.entriesAt xs := by
    refine fun xs hxs => entriesAt_congr fun j hj => ?_
    rw [hentry, if_neg]
    rintro rfl
    exact hxs hj
  have hranked : s'.ranked lists = (s.ranked lists).setList g (s'.entriesAt (lists g)) := by
    have hother : ∀ g', g' ≠ g → s'.entriesAt (lists g') = s.entriesAt (lists g') :=
      fun g' hg => hentries _ fun hi' => hg (h.eq_of_mem hi' hi)
    subst hs'
    cases g <;>
      simp only [ranked, Ranked.setList, hother, ne_eq, reduceCtorEq, not_false_eq_true]
  refine ⟨_, h'.touch hi, ?_⟩
  rw [h'.ranked_touch hi he', hranked]
  refine Ranked.touch_setList (h.find?_list hi he) ?_ ?_ value
  · rw [h'.find?_entriesAt he', if_pos hi]
    rfl
  · rw [← h'.entriesAt_erase he' (h.nodup g), list_ranked, ← h.entriesAt_erase he (h.nodup g)]
    exact hentries _ (h.nodup g).not_mem_erase

/-- Recording an access is the same for a slab and for its lists. -/
lemma ranked_record (s : Slab V) (lists : Segment → List Nat) (key : String) :
    (s.record key).ranked lists = (s.ranked lists).record key := by
  have hentries : ∀ xs, (s.record key).entriesAt xs = s.entriesAt xs := fun xs =>
    entriesAt_congr fun j _ => entryAt_record s key j
  simp only [ranked, hentries, Ranked.record]
  simp only [record]

/-- **A look-up** that is recorded does to the lists what the policy says, hit or miss. -/
lemma ranked_get (h : Layout s lists []) (hsound : Sound s) (key : String) :
    ∃ lists', Layout (s.get key).2 lists' [] ∧ (s.get key).1 = ((s.ranked lists).get key).1 ∧
      (s.get key).2.ranked lists' = ((s.ranked lists).get key).2 := by
  have hrecord : Layout (s.record key) lists [] := h.withFilter _
  have hanswer := (hsound.get key).2.1
  have hpeek : ((s.ranked lists).record key).peek key = s.peek key :=
    (Ranked.peek_record _ key key).trans (h.ranked_peek key)
  rw [hanswer, Ranked.get, hpeek]
  unfold Slab.get
  dsimp only
  rw [index_record]
  cases hi : s.index[key]? with
  | none =>
    rw [hsound.peek_eq_none_iff.mpr hi]
    exact ⟨lists, hrecord, rfl, ranked_record s lists key⟩
  | some i =>
    obtain ⟨g, value, hmem, he⟩ := Sound.exists_mem h hi
    rw [h.peek_of_entry he]
    refine ⟨_, hrecord.touch hmem, rfl, ?_⟩
    rw [hrecord.ranked_touch hmem (by rw [entryAt_record, he]), ranked_record]

/-- **Every call** to a slab is answered by its lists, and afterwards its lists are what the policy
makes of them. -/
theorem ranked_call (h : Layout s lists []) (hsound : Sound s) (c : MapCall V) :
    ∃ lists', Layout (s.call c).2 lists' [] ∧ (s.call c).1 = ((s.ranked lists).call c).1 ∧
      (s.call c).2.ranked lists' = ((s.ranked lists).call c).2 := by
  have hpeek := h.ranked_peek
  cases c with
  | peek key => exact ⟨lists, h, by simp only [Slab.call, Ranked.call, hpeek], rfl⟩
  | contains key =>
    refine ⟨lists, h, ?_, rfl⟩
    simp only [Slab.call, Ranked.call, Ranked.contains, hpeek, hsound.contains_eq]
  | size => exact ⟨lists, h, by simp only [Slab.call, Ranked.call, h.ranked_size], rfl⟩
  | get key =>
    obtain ⟨lists', hlayout, hanswer, hranked⟩ := h.ranked_get hsound key
    exact ⟨lists', hlayout, congrArg _ hanswer, hranked⟩
  | remove key =>
    have hanswer := (hsound.remove key).2.1
    simp only [Slab.call, Ranked.call, Ranked.remove, hanswer, hpeek, true_and]
    unfold Slab.remove
    cases hi : s.index[key]? with
    | none =>
      have hwithout : ∀ g, Ranked.without key (s.entriesAt (lists g)) = s.entriesAt (lists g) :=
        fun g => Ranked.without_of_absent (h.find?_entriesAt_of_absent hi (lists g))
      refine ⟨lists, h, ?_⟩
      simp only [ranked, hwithout]
    | some i =>
      obtain ⟨g, value, hmem, he⟩ := Sound.exists_mem h hi
      have hr := Rearranged.unlink s i
      have he' : (s.unlink i).entryAt i = some (key, value) := by rw [hr.entryAt, he]
      have hout := h.unlink hmem
      refine ⟨_, hout.release he', ?_⟩
      dsimp only
      rw [(hout.ranked_release he').2, hr.ranked]
      simp only [ranked, takeOut, h.entriesAt_erase he (h.nodup _)]
  | insert key value =>
    simp only [Slab.call, Ranked.call, Slab.insert]
    cases hi : s.index[key]? with
    | none =>
      obtain ⟨lists₀, h₀, hfits₀⟩ := hsound
      obtain ⟨lists', hlayout, hanswer, hranked⟩ :=
        h.ranked_insertNew (h.fits_of_fits h₀ hfits₀) hi value
      exact ⟨lists', hlayout, congrArg _ hanswer, hranked⟩
    | some i =>
      obtain ⟨g, old, hmem, he⟩ := Sound.exists_mem h hi
      obtain ⟨lists', hlayout, hranked⟩ := h.ranked_replace hmem he value
      have hpresent : (s.ranked lists).contains key = true := by
        rw [Ranked.contains, hpeek, h.peek_of_entry he]
        rfl
      rw [Ranked.insert, hpresent, if_pos rfl]
      exact ⟨lists', hlayout, rfl, hranked⟩

end Layout

/-! ## Runs -/

/-- Calls one after another are answered by the lists of a slab.

**Proof sketch.** Induction on the calls, for all slabs: a call is answered by the lists
(`Layout.ranked_call`) and leaves a proper slab (`Proper.call`). -/
lemma Layout.ranked_calls (h : Layout s lists []) (hproper : Proper s) (calls : List (MapCall V)) :
    ∃ lists', Layout (s.calls calls).2 lists' [] ∧
      (s.calls calls).1 = ((s.ranked lists).calls calls).1 ∧
      (s.calls calls).2.ranked lists' = ((s.ranked lists).calls calls).2 := by
  induction calls generalizing s lists with
  | nil => exact ⟨lists, h, rfl, rfl⟩
  | cons c rest ih =>
    obtain ⟨lists', hlayout, hanswer, hranked⟩ := h.ranked_call hproper.sound c
    obtain ⟨lists'', hlayout', hanswers, hranked'⟩ := ih hlayout (hproper.call c)
    rw [hranked] at hanswers hranked'
    exact ⟨lists'', hlayout', congrArg₂ _ hanswer hanswers, hranked'⟩

/-- The lists of an empty slab are empty. -/
lemma ranked_empty (hash : String → UInt64) (size samples : Nat) :
    (empty hash size samples : Slab V).ranked (fun _ => []) = Ranked.empty hash size samples := by
  rfl

/-- **A slab is three lists.** Whatever its size, its samples and its hash function, a new slab
answers every sequence of calls as the policy on plain lists does, and drops the same entries.
Afterwards the pointers of each segment visit slots whose entries are, in this order, those of the
list, and the filter has recorded the same accesses.

**Proof sketch.** The lists of a new slab are empty, and every call is answered by them
(`Slab.Layout.ranked_calls`). The tables represent the slots of the lists
(`Slab.Layout.represented`). -/
theorem calls_ranked {hash : String → UInt64} {size samples : Nat}
    (h : Slab.new hash size samples = some s) (calls : List (MapCall V)) :
    (s.calls calls).1 = ((Ranked.empty hash size samples).calls calls).1 ∧
      ∃ lists, Represented (s.calls calls).2 lists ∧
        (s.calls calls).2.ranked lists = ((Ranked.empty hash size samples).calls calls).2 := by
  obtain ⟨rfl, hproper⟩ := Proper.new h
  obtain ⟨lists, hlayout, hanswers, hranked⟩ :=
    (Layout.empty hash size samples).ranked_calls hproper calls
  rw [ranked_empty] at hanswers hranked
  exact ⟨hanswers, lists, hlayout.represented (hproper.calls calls).2.slots_le, hranked⟩

/-- Two keys come into a slab for one entry, which has no room outside the window: the lists drop
the first of them, and so does the slab. -/
theorem calls_ranked_single :
    Slab.new (fun _ => 0) 1 0 = some (empty (fun _ => 0) 1 0 : Slab Bool) ∧
      ((empty (fun _ => 0) 1 0 : Slab Bool).calls
          [.insert "a" true, .insert "b" false, .get "b", .get "a", .size]).1 =
        [.dropped none, .dropped (some ("a", true)), .value (some false), .value none,
          .count 1] := by
  have hnew : Slab.new (fun _ => 0) 1 0 = some (empty (fun _ => 0) 1 0 : Slab Bool) := by
    simp [new, sizeLimit]
  refine ⟨hnew, ?_⟩
  rw [(calls_ranked hnew _).1]
  rfl

end Slab

end LayeredCache.Eviction
