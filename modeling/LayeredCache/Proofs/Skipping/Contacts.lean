import LayeredCache.Proofs.Cache.Throughout
import LayeredCache.Proofs.Serial.FreshReads
import LayeredCache.Proofs.Traffic.Ledger

/-!
# Contacts with the tiers

A tier is read and changed by contacts with it and by nothing else. A call that makes no contact
with a tier leaves it as it was, poll by poll, whatever other callers do between two polls. What a
call leaves for its next poll is a program too, and goes on with the contacts of the call.

## Main definitions

* `Contact.isNear`, `Contact.isFar` — contacts with the near tier, and with the far tier or its
  counts.
* `Cache.FarKept` — the far tier and its counts are what they were.
* `Prog.Pending` — what may be left of a program after some polls.
* `Serial.Call.options`, `Serial.Call.key` — the options and the key of a call.

## Main results

* `Prog.near_visit` — the near tier after a poll that only removes keys from it.
* `Prog.far_visit` — the far tier after a poll without contacts with it.
* `Prog.Pending.throughout` — the contacts of a poll belong to those of the call.
* `Setup.Working.call` — a property of the parts of an operation holds of calls.
-/

set_option autoImplicit false

namespace LayeredCache

/-! ## Kinds of contacts -/

/-- Whether a contact reads or changes the near tier. -/
def Contact.isNear : Contact → Bool
  | .find _ _ | .holds _ _ | .put _ _ _ _ | .drop _ => true
  | _ => false

/-- Whether a contact is a request to the far tier, or counts one. -/
def Contact.isFar : Contact → Bool
  | .ask _ _ | .tally _ => true
  | .count (.hit tier) | .count (.miss tier) => tier == farLabel
  | _ => false

/-! ## The near tier -/

/-- The near tier after a contact, if this does not read it and writes nothing into it. -/
def Contact.onNear (near : Option NearTier) : Contact → Option NearTier
  | .drop key => near.map (·.delete key)
  | _ => near

/-- All contacts with the near tier remove a key from it. -/
def Contact.OnlyDrops (log : List Contact) : Prop :=
  ∀ x ∈ log, x.isNear = true → ∃ key, x = .drop key

namespace Prog

variable {α σ : Type} [FarStore σ] {visit : Visit} {p q rest : Prog α} {c c' : Cache σ}

/-- The near tier after a step that does no more than remove a key from it. -/
lemma near_step (visit : Visit) (p : Prog α) (c : Cache σ)
    (h : Contact.OnlyDrops (p.contact visit c).toList) :
    (p.step visit c).2.near = (p.contact visit c).toList.foldl Contact.onNear c.near := by
  cases p with
  | find key next =>
    cases hnear : c.near with
    | none => simp [step, contact, hnear]
    | some t =>
      have hfinds : (find key next).contact visit c = some (.find key (t.get visit.now key).1) := by
        simp [contact, hnear]
      obtain ⟨_, hdrop⟩ := h _ (Option.mem_toList.mpr hfinds) rfl
      cases hdrop
  | holds key next =>
    obtain ⟨_, hdrop⟩ := h _ (Option.mem_toList.mpr rfl) rfl
    cases hdrop
  | put key content ttl next =>
    cases hnear : c.near with
    | none => simp [step, contact, hnear]
    | some t =>
      have hputs : (put key content ttl next).contact visit c =
          some (.put key content ttl (t.put visit.now key content ttl).isSome) := by
        simp [contact, hnear]
      obtain ⟨_, hdrop⟩ := h _ (Option.mem_toList.mpr hputs) rfl
      cases hdrop
  | call request next =>
    cases hfar : c.far with
    | none => simp [step, contact, hfar]
    | some far =>
      simp only [step, contact, hfar]
      rcases FarStore.answer far visit.now request with ⟨_ | _ | _, far'⟩ <;> rfl
  | awaitLoad next => cases hloaded : visit.loaded <;> simp [step, contact, hloaded, Contact.onNear]
  | join key next =>
    simp only [step, contact]
    cases (c.flights.join visit.caller key).turn visit.caller with
    | start => cases (c.flights.join visit.caller key).seat? visit.caller <;> rfl
    | _ => rfl
  | _ => rfl

/-- **The near tier after a run** that does no more than remove keys from it. -/
lemma near_run (h : Contact.OnlyDrops (p.contacts visit c)) :
    (p.run visit c).2.near = (p.contacts visit c).foldl Contact.onNear c.near := by
  induction p using step_induction (σ := σ) generalizing c with
  | h p ih =>
    rw [contacts_eq_step] at h ⊢
    have hstep := near_step visit p c fun x hx => h x (List.mem_append_left _ hx)
    rw [run_eq_step, List.foldl_append, ← hstep]
    rcases hgoes : p.step visit c with ⟨how | rest, c'⟩
    · rfl
    · exact ih visit c rest c' hgoes fun x hx => h x (List.mem_append_right _ (hgoes ▸ hx))

/-- **The near tier after a poll** that does no more than remove keys from it. -/
theorem near_visit (h : Contact.OnlyDrops (p.contacts visit c)) :
    (p.visit visit c).2.near = (p.contacts visit c).foldl Contact.onNear c.near := by
  rw [← near_run h, Prog.visit]
  rcases p.run visit c with ⟨_ | _ | _, c'⟩ <;> rfl

end Prog

/-! ## The far tier -/

/-- Adding one to a label changes the count of no other one. -/
lemma Series.count_bump_of_ne {label l : String} (h : l ≠ label) (s : Series) :
    (Series.bump label s).count l = s.count l := by
  induction s with
  | nil => exact (count_cons l label 1 []).trans (if_neg h)
  | cons d rest ih =>
    obtain ⟨l', n⟩ := d
    simp only [bump]
    split
    · rename_i heq
      subst heq
      rw [count_cons, count_cons, if_neg h, if_neg h]
    · split
      · rw [count_cons, if_neg h]
      · rw [count_cons, count_cons, ih]

namespace Cache

variable {σ : Type} {c c' c'' : Cache σ}

/-- How many far look-ups have been counted as hits and as misses. -/
def farCounts (c : Cache σ) : Option (Nat × Nat) :=
  c.counters.map fun k => (k.hits.count farLabel, k.misses.count farLabel)

/-- The far tier is what it was, and so are its tally and its counts. -/
structure FarKept (c c' : Cache σ) : Prop where
  far : c'.far = c.far
  tally : c'.tally = c.tally
  counts : c'.farCounts = c.farCounts

lemma FarKept.refl (c : Cache σ) : c.FarKept c := ⟨rfl, rfl, rfl⟩

lemma FarKept.trans (h : c.FarKept c') (h' : c'.FarKept c'') : c.FarKept c'' :=
  ⟨h'.far.trans h.far, h'.tally.trans h.tally, h'.counts.trans h.counts⟩

/-- An event that is not about the far tier does not change its counts. -/
lemma farCounts_recordEvent {event : Event} (h : (Contact.count event).isFar = false) :
    (c.recordEvent event).farCounts = c.farCounts := by
  have hne : ∀ tier, (tier == farLabel) = false → farLabel ≠ tier := by
    intro tier htier heq
    rw [heq, beq_self_eq_true] at htier
    cases htier
  unfold farCounts recordEvent
  cases c.counters with
  | none => rfl
  | some k =>
    cases event with
    | hit tier => simp [Counters.record, Series.count_bump_of_ne (hne tier h)]
    | miss tier => simp [Counters.record, Series.count_bump_of_ne (hne tier h)]
    | load mode => rfl
    | heal => rfl

end Cache

/-- There are no contacts with the far tier. -/
def Contact.FarFree (log : List Contact) : Prop := ∀ x ∈ log, x.isFar = false

namespace Prog

variable {α σ : Type} [FarStore σ] {visit : Visit} {p q rest : Prog α} {c c' : Cache σ}

/-- The far tier after a step without contact with it. -/
lemma far_step (visit : Visit) (p : Prog α) (c : Cache σ)
    (h : Contact.FarFree (p.contact visit c).toList) : c.FarKept (p.step visit c).2 := by
  cases p with
  | find key next =>
    cases hnear : c.near <;> simp only [step, hnear] <;> exact ⟨rfl, rfl, rfl⟩
  | put key content ttl next =>
    cases hnear : c.near with
    | none => simp only [step, hnear]; exact .refl c
    | some t =>
      cases hput : t.put visit.now key content ttl <;> simp only [step, hnear, hput] <;>
        exact ⟨rfl, rfl, rfl⟩
  | call request next =>
    cases hfar : c.far with
    | none => simp only [step, hfar]; exact .refl c
    | some far =>
      have hasks : (call request next).contact visit c =
          some (.ask request (FarStore.answer far visit.now request).1) := by
        simp [contact, hfar]
      cases h _ (Option.mem_toList.mpr hasks)
  | tally found next => cases h _ (Option.mem_toList.mpr rfl)
  | count event next =>
    exact ⟨rfl, rfl, Cache.farCounts_recordEvent (h _ (Option.mem_toList.mpr rfl))⟩
  | awaitLoad next => cases hloaded : visit.loaded <;> simp only [step, hloaded] <;> exact .refl c
  | join key next =>
    simp only [step]
    cases (c.flights.join visit.caller key).turn visit.caller <;> exact ⟨rfl, rfl, rfl⟩
  | _ => exact ⟨rfl, rfl, rfl⟩

/-- **The far tier after a run** without contact with it. -/
lemma far_run (h : Contact.FarFree (p.contacts visit c)) : c.FarKept (p.run visit c).2 := by
  induction p using step_induction (σ := σ) generalizing c with
  | h p ih =>
    rw [contacts_eq_step] at h
    have hstep := far_step visit p c fun x hx => h x (List.mem_append_left _ hx)
    rw [run_eq_step]
    rcases hgoes : p.step visit c with ⟨how | rest, c'⟩ <;> rw [hgoes] at hstep
    · exact hstep
    · exact hstep.trans (ih visit c rest c' hgoes fun x hx =>
        h x (List.mem_append_right _ (hgoes ▸ hx)))

/-- **The far tier after a poll** without contact with it. -/
theorem far_visit (h : Contact.FarFree (p.contacts visit c)) : c.FarKept (p.visit visit c).2 := by
  have hrun := far_run h
  rw [Prog.visit]
  rcases hend : p.run visit c with ⟨_ | _ | _, c'⟩ <;> rw [hend] at hrun
  · exact hrun
  · exact hrun
  · exact ⟨hrun.far, hrun.tally, hrun.counts⟩

/-! ## What is left of a program -/

/-- What may be left of a program after some polls. Each of them may be on another cache that is set
up as `s` says, since others use the cache in between. -/
inductive Pending (σ : Type) [FarStore σ] (s : Setup) (p : Prog α) : Prog α → Prop where
  | whole : Pending σ s p p
  | poll {visit : Visit} {q rest : Prog α} {c c' : Cache σ} (before : Pending σ s p q)
      (setup : c.setup = s) (waits : q.visit visit c = (.blocked rest, c')) :
      Pending σ s p rest

namespace Pending

variable {s : Setup} {P : List Contact → Prop}

/-- **What is left of a program** goes on with the contacts of the program: those that it has made
before have each property that holds throughout the program, and so have all of them together. -/
theorem throughout (h : Pending σ s p q) (hP : Contact.Additive P) (hp : Throughout s P p) :
    ∃ log, P log ∧ ∀ log' r, Trace s q log' r → Trace s p (log ++ log') r := by
  induction h with
  | whole => exact ⟨[], hP.nil, fun _ _ htrace => htrace⟩
  | @poll visit q rest c c' before setup waits ih =>
    obtain ⟨log, -, hgoes⟩ := ih
    have htrace : Trace s q (q.contacts visit c) (.blocked rest) := by
      have hcontacts := trace_contacts visit q c
      rwa [setup, ← progress_visit, waits] at hcontacts
    refine ⟨log ++ q.contacts visit c, hp _ _ (hgoes _ _ htrace), fun log' r hrest => ?_⟩
    rw [List.append_assoc]
    exact hgoes _ _ (htrace.resume hrest)

/-- The contacts of a poll are among those of the program. -/
lemma contacts (h : Pending σ s p q) (hP : Contact.Additive P) (hp : Throughout s P p)
    (hs : c.setup = s) (visit : Visit) :
    ∃ log r, P log ∧ Trace s p (log ++ q.contacts visit c) r := by
  obtain ⟨log, hlog, hgoes⟩ := h.throughout hP hp
  exact ⟨log, _, hlog, hgoes _ _ (hs ▸ trace_contacts visit q c)⟩

end Pending

end Prog

/-! ## Calls -/

namespace Serial.Call

variable {ρ : Type}

/-- The options of a call. A deletion has none, and skips nothing. -/
def options : Call ρ → CallOptions
  | .set _ _ _ o | .get _ _ o | .has _ o => o
  | .delete _ => {}
  | .take _ item | .once _ item | .load _ item => item.options

/-- The key of a call. -/
def key : Call ρ → String
  | .set _ key _ _ | .get _ key _ | .has key _ | .delete key => key
  | .take _ item | .once _ item | .load _ item => item.key

end Serial.Call

/-- **What holds of the parts of an operation** holds of every call that is not a deletion. -/
theorem Setup.Working.call {ρ : Type} {s : Setup} {P : List Contact → Prop} {call : Serial.Call ρ}
    (h : s.Working P call.key call.options) (hcall : ∀ key, call ≠ .delete key) :
    Prog.Throughout s P (call.program s) := by
  cases call with
  | set ty key v o => exact h.set.map h.additive _
  | get ty key o => exact (h.lookup ty).map h.additive _
  | has key o => exact h.has.map h.additive _
  | delete key => exact absurd rfl (hcall key)
  | take ty item => exact h.take.map h.additive _
  | once ty item => exact h.once.map h.additive _
  | load ty item => exact h.load.map h.additive _

end LayeredCache
