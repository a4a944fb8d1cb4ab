import LayeredCache.Proofs.Cache.Courses
import Mathlib.Data.String.Basic
import Mathlib.Data.List.Basic

/-!
# What the counters show

The counters of a cache are changed by the contacts of programs and by nothing else, so that they
show how many contacts of each kind there have been.

## Main definitions

* `Contact.counts`, `Contact.tallies` — whether a contact counts an event, or a far look-up.
* `Counters.Shows`, `Tally.Shows`, `Cache.Shows` — counters show the contacts of a list.

## Main results

* `Series.count_bump` — the count of a label when one is added to another label.
* `Cache.Shows.run` — the counters go on to show what there has been.
-/

set_option autoImplicit false

namespace LayeredCache

/-! ## Series -/

namespace Series

variable {s : Series} {label l : String}

/-- The labels of a series ascend. -/
def Ascending (s : Series) : Prop := s.Pairwise fun a b => a.1 < b.1

/-- The labels of a series after one is added to a label. -/
lemma mem_bump {e : String × Nat} (h : e ∈ bump label s) : e.1 = label ∨ ∃ e' ∈ s, e'.1 = e.1 := by
  induction s with
  | nil => exact .inl (congrArg Prod.fst (List.mem_singleton.mp h))
  | cons d rest ih =>
    obtain ⟨l, n⟩ := d
    simp only [bump] at h
    split at h
    · rcases List.mem_cons.mp h with rfl | h
      · exact .inr ⟨_, List.mem_cons_self, rfl⟩
      · exact .inr ⟨e, List.mem_cons_of_mem _ h, rfl⟩
    · split at h
      · rcases List.mem_cons.mp h with rfl | h
        · exact .inl rfl
        · exact .inr ⟨e, h, rfl⟩
      · rcases List.mem_cons.mp h with rfl | h
        · exact .inr ⟨_, List.mem_cons_self, rfl⟩
        · rcases ih h with h | ⟨e', he', heq⟩
          · exact .inl h
          · exact .inr ⟨e', List.mem_cons_of_mem _ he', heq⟩

/-- The labels still ascend when one is added to a label. -/
lemma Ascending.bump (h : Ascending s) : Ascending (bump label s) := by
  induction s with
  | nil => exact List.pairwise_singleton _ _
  | cons d rest ih =>
    obtain ⟨l, n⟩ := d
    obtain ⟨hfirst, hrest⟩ := List.pairwise_cons.mp h
    simp only [Series.bump]
    split
    · exact List.pairwise_cons.mpr ⟨hfirst, hrest⟩
    · rename_i hne
      split
      · rename_i hlt
        refine List.pairwise_cons.mpr ⟨fun e he => ?_, h⟩
        rcases List.mem_cons.mp he with rfl | he
        · exact hlt
        · exact lt_trans hlt (hfirst e he)
      · rename_i hnot
        refine List.pairwise_cons.mpr ⟨fun e he => ?_, ih hrest⟩
        rcases mem_bump he with heq | ⟨e', he', heq⟩
        · exact heq ▸ lt_of_le_of_ne (not_lt.mp hnot) (Ne.symm hne)
        · exact heq ▸ hfirst e' he'

/-- A label that is not there has the count zero. -/
lemma count_eq_zero (h : ∀ e ∈ s, e.1 ≠ label) : s.count label = 0 := by
  induction s with
  | nil => rfl
  | cons d rest ih =>
    have hne : (label == d.1) = false := by simpa using Ne.symm (h d List.mem_cons_self)
    rw [count, List.lookup_cons, hne]
    exact ih fun e he => h e (List.mem_cons_of_mem _ he)

/-- The count of a label at the front of a series. -/
lemma count_cons (label l : String) (n : Nat) (s : Series) :
    count label ((l, n) :: s) = if label = l then n else count label s := by
  unfold count
  rw [List.lookup_cons]
  by_cases h : label = l
  · simp [h]
  · have hne : (label == l) = false := by simpa using h
    rw [hne, if_neg h]

/-- **Adding one to a label** adds one to its count and to no other. -/
theorem count_bump (h : Ascending s) :
    (bump label s).count l = s.count l + if l = label then 1 else 0 := by
  induction s with
  | nil =>
    rw [bump, count_cons]
    exact (Nat.zero_add _).symm
  | cons d rest ih =>
    obtain ⟨l', n⟩ := d
    obtain ⟨hfirst, hrest⟩ := List.pairwise_cons.mp h
    simp only [bump]
    split
    · rename_i heq
      subst heq
      rw [count_cons, count_cons]
      by_cases hl : l = label <;> simp [hl]
    · rename_i hne
      split
      · rename_i hlt
        rw [count_cons l label]
        by_cases hl : l = label
        · -- a label that is less than the first one was not there
          have hnone : count l ((l', n) :: rest) = 0 := by
            refine count_eq_zero fun e he => ?_
            rcases List.mem_cons.mp he with rfl | he
            · exact hl ▸ (ne_of_gt hlt)
            · exact hl ▸ (ne_of_gt (lt_trans hlt (hfirst e he)))
          rw [if_pos hl, if_pos hl, hnone]
        · rw [if_neg hl, if_neg hl, Nat.add_zero]
      · rw [count_cons, count_cons, ih hrest]
        by_cases hl : l = l'
        · subst hl
          simp [Ne.symm hne]
        · simp [hl]

end Series

/-! ## What counters show -/

/-- Whether a contact counts an event. -/
def Contact.counts (event : Event) : Contact → Bool
  | .count e => e == event
  | _ => false

/-- Whether a contact counts a far look-up that found something, or one that did not. -/
def Contact.tallies (found : Bool) : Contact → Bool
  | .tally b => b == found
  | _ => false

/-- Counters show what was counted by the contacts of a list. -/
structure Counters.Shows (k : Counters) (log : List Contact) : Prop where
  hits : ∀ tier, k.hits.count tier = log.countP (Contact.counts (.hit tier))
  misses : ∀ tier, k.misses.count tier = log.countP (Contact.counts (.miss tier))
  loads : ∀ mode, k.loads.count mode = log.countP (Contact.counts (.load mode))
  heals : k.heals = log.countP (Contact.counts .heal)
  ascending : k.hits.Ascending ∧ k.misses.Ascending ∧ k.loads.Ascending

/-- A tally shows the far look-ups that were counted by the contacts of a list. -/
structure Tally.Shows (t : Tally) (log : List Contact) : Prop where
  hits : t.hits = log.countP (Contact.tallies true)
  misses : t.misses = log.countP (Contact.tallies false)

/-- A cache has counters that show the contacts of a list, and a tally that shows the recent
ones. -/
structure Cache.Shows {σ : Type} (c : Cache σ) (recent log : List Contact) : Prop where
  tally : ∃ t, c.tally = some t ∧ t.Shows recent
  counters : ∃ k, c.counters = some k ∧ k.Shows log

section Shows

variable {α σ : Type} {c c' : Cache σ} {recent log : List Contact} {k : Counters} {t : Tally}

/-- One more event. -/
lemma Counters.Shows.record (h : k.Shows log) (e : Event) :
    (k.record e).Shows (log ++ [.count e]) := by
  have hone : ∀ e', [Contact.count e].countP (Contact.counts e') = if e' = e then 1 else 0 := by
    intro e'
    by_cases he : e' = e
    · simp [Contact.counts, he]
    · simp [Contact.counts, he, Ne.symm he]
  obtain ⟨hhits, hmisses, hloads⟩ := h.ascending
  refine ⟨fun tier => ?_, fun tier => ?_, fun mode => ?_, ?_, ?_⟩
  · rw [List.countP_append, hone, ← h.hits]
    cases e <;> simp [Counters.record, Series.count_bump hhits]
  · rw [List.countP_append, hone, ← h.misses]
    cases e <;> simp [Counters.record, Series.count_bump hmisses]
  · rw [List.countP_append, hone, ← h.loads]
    cases e <;> simp [Counters.record, Series.count_bump hloads]
  · rw [List.countP_append, hone, ← h.heals]
    cases e <;> simp [Counters.record]
  · cases e with
    | hit tier => exact ⟨hhits.bump, hmisses, hloads⟩
    | miss tier => exact ⟨hhits, hmisses.bump, hloads⟩
    | load mode => exact ⟨hhits, hmisses, hloads.bump⟩
    | heal => exact h.ascending

/-- Contacts that count no event. -/
lemma Counters.Shows.append (h : k.Shows log) {xs : List Contact}
    (hxs : ∀ x ∈ xs, ∀ e, x.counts e = false) : k.Shows (log ++ xs) := by
  have hnone : ∀ e, (log ++ xs).countP (Contact.counts e) = log.countP (Contact.counts e) := by
    intro e
    have hzero : xs.countP (Contact.counts e) = 0 := by
      rw [List.countP_eq_zero]
      intro x hx
      simp [hxs x hx e]
    rw [List.countP_append, hzero, Nat.add_zero]
  refine ⟨fun tier => ?_, fun tier => ?_, fun mode => ?_, ?_, h.ascending⟩
  · rw [hnone, h.hits]
  · rw [hnone, h.misses]
  · rw [hnone, h.loads]
  · rw [hnone, h.heals]

/-- One more far look-up. -/
lemma Tally.Shows.record (h : t.Shows log) (found : Bool) :
    (if found then t.hit else t.miss).Shows (log ++ [.tally found]) := by
  cases found <;>
    exact ⟨by simp [Tally.hit, Tally.miss, Contact.tallies, h.hits],
      by simp [Tally.hit, Tally.miss, Contact.tallies, h.misses]⟩

/-- Contacts that count no far look-up. -/
lemma Tally.Shows.append (h : t.Shows log) {xs : List Contact}
    (hxs : ∀ x ∈ xs, ∀ found, x.tallies found = false) : t.Shows (log ++ xs) := by
  have hnone : ∀ found, (log ++ xs).countP (Contact.tallies found) =
      log.countP (Contact.tallies found) := by
    intro found
    have hzero : xs.countP (Contact.tallies found) = 0 := by
      rw [List.countP_eq_zero]
      intro x hx
      simp [hxs x hx found]
    rw [List.countP_append, hzero, Nat.add_zero]
  exact ⟨by rw [hnone, h.hits], by rw [hnone, h.misses]⟩

namespace Cache.Shows

/-- Contacts that count nothing leave the counters as they are. -/
lemma append (h : c.Shows recent log) {xs : List Contact} (htally : c'.tally = c.tally)
    (hcounters : c'.counters = c.counters)
    (hxs : ∀ x ∈ xs, (∀ e, x.counts e = false) ∧ ∀ found, x.tallies found = false) :
    c'.Shows (recent ++ xs) (log ++ xs) := by
  obtain ⟨⟨t, ht, ht'⟩, k, hk, hk'⟩ := h
  exact ⟨⟨t, htally.trans ht, ht'.append fun x hx => (hxs x hx).2⟩, k, hcounters.trans hk,
    hk'.append fun x hx => (hxs x hx).1⟩

/-- **A step** keeps the counters exact: what it counts is its contact. -/
lemma step [FarStore σ] (h : c.Shows recent log) (visit : Visit) (p : Prog α) :
    (p.step visit c).2.Shows (recent ++ (p.contact visit c).toList)
      (log ++ (p.contact visit c).toList) := by
  cases p with
  | tally found next =>
    obtain ⟨⟨t, ht, ht'⟩, k, hk, hk'⟩ := h
    refine ⟨⟨_, congrArg (Option.map _) ht, ht'.record found⟩, k, hk, hk'.append ?_⟩
    simp [Prog.contact, Contact.counts]
  | count e next =>
    obtain ⟨⟨t, ht, ht'⟩, k, hk, hk'⟩ := h
    refine ⟨⟨t, ht, ht'.append ?_⟩, _, congrArg (Option.map _) hk, hk'.record e⟩
    simp [Prog.contact, Contact.tallies]
  | done a => exact h.append rfl rfl (by simp [Prog.contact])
  | find key next =>
    cases hnear : c.near <;> simp only [Prog.step, Prog.contact, hnear] <;>
      exact h.append rfl rfl (by simp [Contact.counts, Contact.tallies])
  | holds key next =>
    exact h.append rfl rfl (by simp [Prog.contact, Contact.counts, Contact.tallies])
  | put key content ttl next =>
    cases hnear : c.near with
    | none =>
      simp only [Prog.step, Prog.contact, hnear]
      exact h.append rfl rfl (by simp)
    | some t =>
      cases hput : t.put visit.now key content ttl <;>
        simp only [Prog.step, Prog.contact, hnear, hput] <;>
        exact h.append rfl rfl (by simp [Contact.counts, Contact.tallies])
  | drop key next =>
    exact h.append rfl rfl (by simp [Prog.contact, Contact.counts, Contact.tallies])
  | call request next =>
    cases hfar : c.far with
    | none =>
      simp only [Prog.step, Prog.contact, hfar]
      exact h.append rfl rfl (by simp)
    | some far =>
      simp only [Prog.step, Prog.contact, hfar]
      rcases FarStore.answer far visit.now request with ⟨_ | _ | _, far'⟩ <;>
        exact h.append rfl rfl (by simp [Contact.counts, Contact.tallies])
  | startLoad next =>
    exact h.append rfl rfl (by simp [Prog.contact, Contact.counts, Contact.tallies])
  | awaitLoad next =>
    cases hloaded : visit.loaded <;> simp only [Prog.step, Prog.contact, hloaded] <;>
      exact h.append rfl rfl (by simp [Contact.counts, Contact.tallies])
  | join key next =>
    simp only [Prog.step, Prog.contact]
    cases (c.flights.join visit.caller key).turn visit.caller <;>
      exact h.append rfl rfl (by simp [Contact.counts, Contact.tallies])
  | land outcome next =>
    exact h.append rfl rfl (by simp [Prog.contact, Contact.counts, Contact.tallies])

/-- **A run** keeps the counters exact: what it counts are its contacts. -/
theorem run [FarStore σ] (h : c.Shows recent log) (visit : Visit) (p : Prog α) :
    (p.run visit c).2.Shows (recent ++ p.contacts visit c) (log ++ p.contacts visit c) := by
  induction p using Prog.step_induction (σ := σ) generalizing c recent log with
  | h p ih =>
    have hstep' := h.step visit p
    rw [Prog.contacts_eq_step, Prog.run_eq_step, ← List.append_assoc, ← List.append_assoc]
    rcases hstep : p.step visit c with ⟨how | rest, c'⟩
    · rw [hstep] at hstep'
      simpa [Prog.Step.contacts, Prog.Step.run] using hstep'
    · rw [hstep] at hstep'
      exact ih visit c rest c' hstep hstep'

/-- Leaving a shared run changes no counter. -/
lemma visit [FarStore σ] (h : c.Shows recent log) (v : Visit) (p : Prog α) :
    (p.visit v c).2.Shows (recent ++ p.contacts v c) (log ++ p.contacts v c) := by
  have hrun := h.run v p
  rw [Prog.visit]
  rcases hr : p.run v c with ⟨_ | _ | _, c'⟩ <;> rw [hr] at hrun
  · exact hrun
  · exact hrun
  · exact ⟨hrun.tally, hrun.counters⟩

end Cache.Shows

end Shows

end LayeredCache
