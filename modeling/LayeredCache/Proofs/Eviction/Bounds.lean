import LayeredCache.Proofs.Eviction.Ranking

/-!
# Bounds of the segments, and who is evicted

The capacities of the window, of the guarded segment and of the main part are fixed when a slab is
made, and between two calls no segment is longer than they allow. Probation has a capacity of its
own that nothing looks at; what bounds it is the main part. Since not all of the main part can be
guarded, there is somebody on probation whenever the main part is full: an insertion never takes a
guarded entry away, and takes one on probation away only for a candidate that the filter finds
more popular.

## Main definitions

* `Slab.Bounded` — the segments are within their capacities.
* `Slab.Evicts` — which entry an insertion takes away, and for whom.

## Main results

* `Ranked.evicted_of_insert` — an evicted entry is the candidate or lost to it.
* `Slab.Proper.bounded` — a proper slab is bounded.
* `Slab.calls_bounded` — after every sequence of calls a slab is bounded, and what the next
  insertion evicts is the last of the window or of probation.
-/

set_option autoImplicit false

namespace LayeredCache.Eviction

open LayeredCache.Frequency

variable {V : Type}

namespace Ranked

variable {r : Ranked V} {key : String} {value : V} {e : String × V}

/-! ## Capacities -/

/-- The capacities of the lists. -/
def capacities (r : Ranked V) : Nat × Nat × Nat :=
  (r.windowCapacity, r.guardedCapacity, r.mainCapacity)

@[simp] lemma capacities_record (r : Ranked V) (key : String) :
    (r.record key).capacities = r.capacities := by
  simp only [capacities, record]

@[simp] lemma capacities_demote (r : Ranked V) : r.demote.capacities = r.capacities := by
  unfold demote
  split
  · split <;> rfl
  · rfl

@[simp] lemma capacities_touch (r : Ranked V) (key : String) (value : V) :
    (r.touch key value).capacities = r.capacities := by
  unfold touch
  split
  · rfl
  · split
    · rfl
    · rw [capacities_demote]
      rfl

@[simp] lemma capacities_contend (r : Ranked V) (candidate : String × V) :
    (r.contend candidate).2.capacities = r.capacities := by
  unfold contend
  split
  · rfl
  · split
    · rfl
    · split <;> rfl

@[simp] lemma capacities_setList (r : Ranked V) (g : Segment) (entries : List (String × V)) :
    (r.setList g entries).capacities = r.capacities := by
  cases g <;> rfl

@[simp] lemma capacities_entered (r : Ranked V) (key : String) (value : V) :
    (r.entered key value).capacities = r.capacities := by
  simp only [capacities, entered, record]

/-- An insertion changes no capacity. -/
lemma capacities_insert (r : Ranked V) (key : String) (value : V) :
    (r.insert key value).2.capacities = r.capacities := by
  cases hkey : r.peek key with
  | some old =>
    have hcontains : r.contains key = true := by rw [contains, hkey, Option.isSome_some]
    rw [insert, hcontains, if_pos rfl]
    exact capacities_touch r key value
  | none =>
    rw [insert_of_absent hkey]
    split
    · exact capacities_entered r key value
    · split
      · rw [capacities_contend, capacities_setList, capacities_entered]
      · exact capacities_entered r key value

/-- No call changes a capacity. -/
lemma capacities_call (r : Ranked V) (c : MapCall V) :
    (r.call c).2.capacities = r.capacities := by
  cases c with
  | peek key => rfl
  | contains key => rfl
  | size => rfl
  | remove key => rfl
  | get key =>
    simp only [call, get]
    split
    · rw [capacities_touch, capacities_record]
    · exact capacities_record r key
  | insert key value => exact capacities_insert r key value

/-- Calls one after another change no capacity. -/
lemma capacities_calls (r : Ranked V) (calls : List (MapCall V)) :
    (r.calls calls).2.capacities = r.capacities := by
  induction calls generalizing r with
  | nil => rfl
  | cons c rest ih => exact (ih (r.call c).2).trans (capacities_call r c)

/-! ## What an insertion evicts -/

/-- A competition drops the candidate, or the last entry on probation when it is less popular. -/
lemma evicted_of_contend {candidate : String × V} (h : (r.contend candidate).1 = some e) :
    e = candidate ∨ r.probation.getLast? = some e ∧
      r.filter.estimate (r.hash e.1) < r.filter.estimate (r.hash candidate.1) := by
  unfold contend at h
  split at h
  · cases h
  · split at h
    case h_1 => exact .inl (Option.some.inj h).symm
    case h_2 victim hlast =>
      split at h
      case isTrue hwins =>
        obtain rfl : victim = e := Option.some.inj h
        exact .inr ⟨hlast, hwins⟩
      case isFalse => exact .inl (Option.some.inj h).symm

/-- **An evicted entry is the candidate or lost to it.** The candidate is the last entry of the
window as it was, for the window is not empty when a new key overflows it. It is evicted itself, or
in its favour the last entry on probation, which the filter finds less popular.

**Proof sketch.** A new key that overflows the window makes the last entry compete
(`evicted_of_contend`); nothing but the filter has changed outside the window by then. -/
lemma evicted_of_insert (hwindow : 0 < r.windowCapacity) (h : (r.insert key value).1 = some e) :
    ∃ candidate, r.window.getLast? = some candidate ∧
      (e = candidate ∨
        r.probation.getLast? = some e ∧
          (r.filter.record (r.hash key)).estimate (r.hash e.1) <
            (r.filter.record (r.hash key)).estimate (r.hash candidate.1)) := by
  cases hkey : r.peek key with
  | some old =>
    have hcontains : r.contains key = true := by rw [contains, hkey, Option.isSome_some]
    rw [insert, hcontains, if_pos rfl] at h
    cases h
  | none =>
    rw [insert_of_absent hkey] at h
    have hlong : (r.entered key value).window = (key, value) :: r.window := by
      simp only [entered, record]
    have hcapacity : (r.entered key value).windowCapacity = r.windowCapacity := by
      simp only [entered, record]
    rw [hlong, hcapacity] at h
    split at h
    · cases h
    · rename_i hfull
      obtain ⟨candidate, hlast⟩ : ∃ candidate, r.window.getLast? = some candidate := by
        apply Option.ne_none_iff_exists'.mp
        intro hnone
        rw [List.getLast?_eq_none_iff.mp hnone] at hfull
        exact hfull hwindow
      have hcandidate : ((key, value) :: r.window).getLast? = some candidate := by
        rw [List.getLast?_cons, hlast, Option.getD_some]
      rw [hcandidate] at h
      have hcontend := evicted_of_contend h
      simp only [setList, entered, record] at hcontend
      exact ⟨candidate, hlast, hcontend⟩

end Ranked

namespace Slab

variable {s : Slab V} {lists : Segment → List Nat}

/-! ## Bounds -/

/-- The segments are within the capacities of a slab that was made for `size` entries. -/
structure Bounded (s : Slab V) (size : Nat) : Prop where
  window : s.window.length ≤ s.window.capacity
  guarded : s.guarded.length ≤ s.guarded.capacity
  main : s.probation.length + s.guarded.length ≤ s.mainCapacity
  capacity : s.window.capacity + s.mainCapacity = max size 1

/-- **A proper slab is bounded.** -/
lemma Proper.bounded (h : Proper s) {size : Nat} (hcapacity : s.capacity = max size 1) :
    s.Bounded size := by
  obtain ⟨lists, hlayout, hfits⟩ := h.sound
  have hwindow : s.window.length = (lists .window).length := hlayout.length .window
  have hguarded : s.guarded.length = (lists .guarded).length := hlayout.length .guarded
  have hprobation : s.probation.length = (lists .probation).length := hlayout.length .probation
  constructor
  · rw [hwindow]
    exact hfits.window
  · rw [hguarded]
    exact hfits.guarded
  · rw [hprobation, hguarded]
    exact hfits.main
  · exact hcapacity

/-! ## Evictions -/

/-- The least recent node of a segment holds an entry. -/
def LastOf (s : Slab V) (g : Segment) (e : String × V) : Prop :=
  ∃ i, (s.queue g).tail = some i ∧ s.entryAt i = some e

/-- Inserting `key` may take the entry `e` away: it is the least recent of the window, the
candidate, or it is the least recent on probation and less popular than the candidate once the
access to `key` is recorded. No guarded slot has its key. -/
structure Evicts (s : Slab V) (lists : Segment → List Nat) (key : String) (e : String × V) :
    Prop where
  last : ∃ candidate, s.LastOf .window candidate ∧
    (e = candidate ∨ s.LastOf .probation e ∧
      (s.filter.record (s.hash key)).estimate (s.hash e.1) <
        (s.filter.record (s.hash key)).estimate (s.hash candidate.1))
  unguarded : ∀ i ∈ lists .guarded, ∀ value, s.entryAt i ≠ some (e.1, value)

namespace Layout

variable {loose : List Nat} {g : Segment} {e : String × V}

/-- The last entry of a list is held by the last node of the segment. -/
lemma lastOf (h : Layout s lists loose) (hlast : (s.entriesAt (lists g)).getLast? = some e) :
    s.LastOf g e := by
  have htail := h.tail g
  cases hslot : (lists g).getLast? with
  | none =>
    rw [entriesAt_getLast?_none hslot] at hlast
    cases hlast
  | some i =>
    rw [hslot] at htail
    obtain ⟨key, value, he⟩ := h.exists_entry (List.mem_of_getLast? hslot)
    rw [(h.entriesAt_getLast? hslot he).1] at hlast
    obtain rfl := Option.some.inj hlast
    exact ⟨i, htail, he⟩

/-- What the last node of the window or of probation holds is not guarded: a key has one slot, and
a slot has one segment. -/
lemma unguarded (h : Layout s lists loose) (hg : g ≠ .guarded) (hlast : s.LastOf g e) :
    ∀ i ∈ lists .guarded, ∀ value, s.entryAt i ≠ some (e.1, value) := by
  intro i hi value he
  obtain ⟨j, htail, hj⟩ := hlast
  rw [h.tail g] at htail
  have hsame : i = j := h.slot_eq he hj
  subst hsame
  exact hg (h.eq_of_mem (List.mem_of_getLast? htail) hi)

/-- **An insertion evicts the last of the window or of probation.**

**Proof sketch.** The lists of the slab drop the same entry (`ranked_call`), and they drop the last
of the window's list or of the one on probation (`Ranked.evicted_of_insert`). -/
lemma evicts (h : Layout s lists []) (hproper : Proper s) {key : String} {value : V}
    (hdropped : (s.insert key value).1 = some e) : s.Evicts lists key e := by
  obtain ⟨lists', hlayout, hfits⟩ := hproper.sound
  obtain ⟨-, -, hanswer, -⟩ := h.ranked_call hproper.sound (.insert key value)
  have hlists : ((s.ranked lists).insert key value).1 = some e := by
    rw [← hdropped]
    exact (MapAnswer.dropped.inj hanswer).symm
  have hpos : 0 < (s.ranked lists).windowCapacity := hfits.window_pos
  obtain ⟨candidate, hcandidate, hevicted⟩ := Ranked.evicted_of_insert hpos hlists
  have hlast : s.LastOf .window candidate := h.lastOf hcandidate
  rcases hevicted with rfl | ⟨hvictim, hless⟩
  · exact ⟨⟨e, hlast, .inl rfl⟩, h.unguarded (by decide) hlast⟩
  · have hvictim' : s.LastOf .probation e := h.lastOf hvictim
    exact ⟨⟨candidate, hlast, .inr ⟨hvictim', hless⟩⟩, h.unguarded (by decide) hvictim'⟩

end Layout

/-! ## Runs -/

/-- **Segments keep their bounds, and guarded entries are never evicted.** Whatever its size, its
samples and its hash function, a new slab is within its capacities after every sequence of calls,
and these are still the capacities that it was made with. When the next call is an insertion that
evicts an entry, this is the least recent of the window or the least recent on probation and not a
guarded one; and one outside the window only goes for a candidate whose estimate is greater.

**Proof sketch.** Every call keeps a slab proper, and a proper slab is bounded. The lists of the
slab never change their capacities, and they drop what it drops. -/
theorem calls_bounded {hash : String → UInt64} {size samples : Nat}
    (h : Slab.new hash size samples = some s) (calls : List (MapCall V)) :
    let t := (s.calls calls).2
    t.Bounded size ∧
      (t.window.capacity = s.window.capacity ∧ t.guarded.capacity = s.guarded.capacity ∧
        t.mainCapacity = s.mainCapacity) ∧
      ∃ lists, Represented t lists ∧
        ∀ key value e, (t.insert key value).1 = some e → t.Evicts lists key e := by
  intro t
  obtain ⟨hholds, hcapacity⟩ := Slab.holds_new h
  obtain ⟨-, -, -, hkept⟩ := Slab.calls_lawful_of_holds hholds calls
  obtain ⟨rfl, hproper⟩ := Proper.new h
  have hproper' : Proper t := (hproper.calls calls).2
  obtain ⟨lists, hlayout, -, hranked⟩ :=
    (Layout.empty hash size samples).ranked_calls hproper calls
  refine ⟨hproper'.bounded (hkept.trans hcapacity), ?_, lists,
    hlayout.represented hproper'.slots_le, fun key value e => hlayout.evicts hproper'⟩
  have hcapacities : (t.ranked lists).capacities =
      ((empty hash size samples : Slab V).ranked fun _ => []).capacities := by
    rw [hranked]
    exact Ranked.capacities_calls _ calls
  simpa only [Ranked.capacities, ranked, Prod.mk.injEq] using hcapacities

/-- A slab for one entry gets two keys: the first of them is evicted, as the window's candidate. -/
theorem calls_bounded_single :
    Slab.new (fun _ => 0) 1 0 = some (empty (fun _ => 0) 1 0 : Slab Bool) ∧
      let t := ((empty (fun _ => 0) 1 0 : Slab Bool).calls [.insert "a" true]).2
      t.Bounded 1 ∧ (t.insert "b" false).1 = some ("a", true) ∧
        ∃ lists, Represented t lists ∧ t.Evicts lists "b" ("a", true) := by
  have hnew : Slab.new (fun _ => 0) 1 0 = some (empty (fun _ => 0) 1 0 : Slab Bool) := by
    simp [new, sizeLimit]
  obtain ⟨-, -, hanswers, -⟩ := (Layout.empty (fun _ => 0) 1 0).ranked_calls
    (Proper.empty (fun _ => 0) 1 0) [.insert "a" true, .insert "b" false]
  have hsecond : (((empty (fun _ => 0) 1 0 : Slab Bool).calls [.insert "a" true]).2.insert
      "b" false).1 = some ("a", true) :=
    MapAnswer.dropped.inj (Option.some.inj (congrArg (·[1]?) hanswers))
  obtain ⟨hbounded, -, lists, hlists, hevicts⟩ := calls_bounded hnew [.insert "a" true]
  exact ⟨hnew, hbounded, hsecond, lists, hlists, hevicts "b" false ("a", true) hsecond⟩

end Slab

end LayeredCache.Eviction
