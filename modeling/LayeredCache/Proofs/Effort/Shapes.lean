import LayeredCache.Proofs.Effort.Limits
import LayeredCache.Proofs.Serial.FreshReads
import Mathlib.Algebra.GroupWithZero.Nat
import Mathlib.Data.List.TakeWhile

/-!
# How the contacts of a call go on

A call deals with at most one shared run. A shared load makes one look-up before it joins, and the
rest inside the run that it leads, where it stays until it lands. What a call has done so far can be
split at the point where it joins, and where it stands to the shared runs can be read off it.

## Main definitions

* `Effort.ahead`, `Effort.inside` — the contacts before a call joins, and those from then on.
* `Effort.Stage`, `Effort.stageOf` — where a caller stands to the shared runs.
* `Effort.Begins` — contacts with which a call can begin.

## Main results

* `Effort.call_shape` — every call deals with one shared run at most.
* `Effort.Begins.spends` — what a call has done so far stays within its limits.
-/

set_option autoImplicit false

namespace LayeredCache

open Prog

namespace Effort

/-! ## Dealings with the shared runs -/

/-- Whether a contact is a dealing with the shared runs. -/
def shares (x : Contact) : Bool := Kind.share.covers x

/-- The contacts of a caller before it deals with the shared runs. -/
def ahead (log : List Contact) : List Contact := log.takeWhile fun x => !shares x

/-- The contacts of a caller from its first dealing with the shared runs. -/
def inside (log : List Contact) : List Contact := log.dropWhile fun x => !shares x

/-- Where a caller stands to the shared runs. -/
inductive Stage where
  /-- It has led none. -/
  | outside
  /-- It leads the one at a place. -/
  | leading (place : Nat)
  /-- It has led one or received an outcome. -/
  | over

/-- Where a caller stands after a contact, if it may make it. -/
def Stage.next : Stage → Contact → Option Stage
  | .outside, .lead place => some (.leading place)
  | .outside, .collect _ => some .over
  | .leading _, .land _ => some .over
  | stage, x => if shares x then none else some stage

/-- Where a caller stands after its contacts. -/
def stageOf (log : List Contact) : Option Stage := log.foldlM Stage.next .outside

/-- How the contacts of a call go on: it deals with one shared run at most. -/
inductive Shape (limit limit' : Kind → Nat) : List Contact → Prop where
  | apart {log : List Contact} (alone : ∀ k, spent k log ≤ limit k) : Shape limit limit' log
  | received {log : List Contact} (outcome : Outcome) (alone : ∀ k, spent k log ≤ limit k) :
      Shape limit limit' (log ++ [.collect outcome])
  | leads {log body : List Contact} (place : Nat) (alone : ∀ k, spent k log ≤ limit k)
      (run : ∀ k, spent k body ≤ limit' k) : Shape limit limit' (log ++ .lead place :: body)
  | lands {log body : List Contact} (place : Nat) (outcome : Outcome)
      (alone : ∀ k, spent k log ≤ limit k) (run : ∀ k, spent k body ≤ limit' k) :
      Shape limit limit' (log ++ .lead place :: (body ++ [.land outcome]))

/-- What a caller does to join, to lead and to land. -/
def joining : Kind → Nat
  | .share => 2
  | .any => 2
  | _ => 0

section Shapes

variable {α β ρ : Type} {s : Setup} {limit limit' : Kind → Nat} {p : Prog α}
  {log log' : List Contact}
  {ty : Ty} {item : Item ρ} {stage : Stage}

/-- Contacts of a caller that does not deal with the shared runs. -/
lemma free_of_spent (h : spent .share log ≤ 0) : ∀ x ∈ log, shares x = false := by
  intro x hx
  have hnone := List.countP_eq_zero.mp (Nat.le_zero.mp h) x hx
  simpa [shares] using hnone

/-- A contact that is no dealing with the shared runs changes nothing about them. -/
lemma Stage.next_free {x : Contact} (h : shares x = false) : stage.next x = some stage := by
  cases x <;> cases stage <;> first | rfl | cases h

/-- A caller that does not deal with the shared runs stands as before. -/
lemma foldlM_free (h : ∀ x ∈ log, shares x = false) : log.foldlM Stage.next stage = some stage := by
  induction log with
  | nil => rfl
  | cons x log ih =>
    rw [List.foldlM_cons, Stage.next_free (h x List.mem_cons_self)]
    exact ih fun y hy => h y (List.mem_cons_of_mem _ hy)

/-- The contacts before a first dealing with the shared runs. -/
lemma ahead_append {x : Contact} (h : ∀ y ∈ log, shares y = false) (hx : shares x = true) :
    ahead (log ++ x :: log') = log := by
  unfold ahead
  rw [List.takeWhile_append_of_pos (by simpa using h), List.takeWhile_cons_of_neg (by simp [hx]),
    List.append_nil]

/-- The contacts from a first dealing with the shared runs. -/
lemma inside_append {x : Contact} (h : ∀ y ∈ log, shares y = false) (hx : shares x = true) :
    inside (log ++ x :: log') = x :: log' := by
  unfold inside
  rw [List.dropWhile_append_of_pos (by simpa using h), List.dropWhile_cons_of_neg (by simp [hx])]

/-- A caller that does not deal with the shared runs has no contacts inside them. -/
lemma inside_free (h : ∀ y ∈ log, shares y = false) : inside log = [] := by
  unfold inside
  rw [List.dropWhile_eq_nil_iff]
  simpa using h

/-- A caller that does not deal with the shared runs makes all contacts ahead of them. -/
lemma ahead_free (h : ∀ y ∈ log, shares y = false) : ahead log = log := by
  unfold ahead
  rw [List.takeWhile_eq_self_iff]
  simpa using h

/-- **What a shape says** of the contacts ahead of a shared run and of those inside it. The caller
stands somewhere in the end. -/
theorem Shape.spends (h : Shape limit limit' log) (hfree : limit .share = 0)
    (hfree' : limit' .share = 0) :
    (∀ k, spent k (ahead log) ≤ limit k) ∧
      (∀ k, spent k (inside log) ≤ limit' k + joining k) ∧
      ∃ stage, stageOf log = some stage := by
  have hshares : ∀ {log : List Contact} {limit : Kind → Nat}, limit .share = 0 →
      (∀ k, spent k log ≤ limit k) → ∀ x ∈ log, shares x = false :=
    fun hzero hlimit => free_of_spent (hzero ▸ hlimit .share)
  cases h with
  | apart alone =>
    have hnone := hshares hfree alone
    rw [ahead_free hnone, inside_free hnone]
    exact ⟨alone, fun k => Nat.zero_le _, .outside, foldlM_free hnone⟩
  | received outcome alone =>
    have hnone := hshares hfree alone
    rw [ahead_append hnone rfl, inside_append hnone rfl]
    refine ⟨alone, fun k => ?_, .over, ?_⟩
    · cases k <;> simp [Kind.covers, joining]
    · rw [stageOf, List.foldlM_append, foldlM_free hnone]
      rfl
  | leads place alone run =>
    have hnone := hshares hfree alone
    have hbody := hshares hfree' run
    rw [ahead_append hnone rfl, inside_append hnone rfl]
    refine ⟨alone, fun k => ?_, .leading place, ?_⟩
    · have := run k
      rw [spent_cons]
      cases k <;> simp [Kind.covers, joining] at this ⊢ <;> omega
    · rw [stageOf, List.foldlM_append, foldlM_free hnone]
      exact foldlM_free hbody
  | lands place outcome alone run =>
    rename_i log body
    have hnone := hshares hfree alone
    have hbody := hshares hfree' run
    rw [ahead_append hnone rfl, inside_append hnone rfl]
    refine ⟨alone, fun k => ?_, .over, ?_⟩
    · have := run k
      rw [spent_cons, spent_append]
      cases k <;> simp [Kind.covers, joining] at this ⊢ <;> omega
    · have hlanded : (body ++ [Contact.land outcome]).foldlM Stage.next (.leading place) =
          some .over := by
        rw [List.foldlM_append, foldlM_free hbody]
        rfl
      rw [stageOf, List.foldlM_append, foldlM_free hnone]
      exact hlanded

/-- What is done with the result of a call does not change its shape. -/
lemma shape_map {f : α → β} {r : Progress β}
    (hp : ∀ log r, Trace s p log r → Shape limit limit' log)
    (h : Trace s (p.bind fun a => .done (f a)) log r) : Shape limit limit' log := by
  cases Trace.of_bind h with
  | ends first second =>
    cases second
    rw [List.append_nil]
    exact hp _ _ first
  | waits first => exact hp _ _ first
  | crashes first => exact hp _ _ first

/-- **A shared load** looks up once, and does the rest inside the run that it leads. -/
theorem once_shape {r : Progress (Except Failure (Option Value))}
    (h : Trace s (s.once ty item) log r) : Shape looking flying log := by
  cases Trace.of_bind h with
  | waits first => exact .apart (lookup_within _ _ first).1
  | crashes first => exact .apart (lookup_within _ _ first).1
  | @ends reading _ _ _ first second =>
    have hlooked := (lookup_within _ _ first).1
    cases reading with
    | ok v =>
      cases second
      rw [List.append_nil]
      exact .apart hlooked
    | error f =>
      simp only at second
      split at second
      · cases second with
        | waits =>
          rw [List.append_nil]
          exact .apart hlooked
        | collect outcome rest =>
          cases rest
          exact .received outcome hlooked
        | lead place rest =>
          cases Trace.of_bind rest with
          | ends first second =>
            cases second with
            | land rest =>
              cases rest
              exact .lands place _ hlooked (flight_within _ _ first).1
          | waits first => exact .leads place hlooked (flight_within _ _ first).1
          | crashes first => exact .leads place hlooked (flight_within _ _ first).1
      · cases second
        rw [List.append_nil]
        exact .apart hlooked

end Shapes

/-! ## Calls -/

section Calls

open Serial (Call)

variable {ρ : Type} {s : Setup} {log log' : List Contact} {r : Progress Unit} {call : Call ρ}

/-- Whether a call may wait for another caller's run. -/
def mayShare : Call ρ → Bool
  | .once _ _ => true
  | .load _ item => item.options.group
  | _ => false

/-- What a call does at most before it deals with the shared runs. -/
def aheadOf : Call ρ → Kind → Nat
  | .set _ _ _ _ => writing
  | .get _ _ _ => looking
  | .has _ _ => looking
  | .delete _ => deleting
  | .take _ _ => taking
  | .once _ _ => looking
  | .load _ item => if item.options.group then looking else taking

/-- What a call does at most inside the shared run that it leads. -/
def insideOf (call : Call ρ) : Kind → Nat := if mayShare call then flying else 0

/-- A call that shares no run stays within its limits. -/
lemma call_within (hshare : mayShare call = false) : Within s (aheadOf call) (call.program s) := by
  cases call with
  | set ty key v o => exact set_within.map _
  | get ty key o => exact lookup_within.map _
  | has key o => exact has_within.map _
  | delete key => exact delete_within.map _
  | take ty item => exact take_within.map _
  | once ty item => cases hshare
  | load ty item =>
    have hgroup : item.options.group = false := hshare
    simp only [Call.program, Setup.load, aheadOf, hgroup]
    exact take_within.map _

/-- **Every call** deals with one shared run at most. -/
theorem call_shape (h : Trace s (call.program s) log r) :
    Shape (aheadOf call) (insideOf call) log := by
  cases hshare : mayShare call with
  | false => exact .apart (call_within hshare _ _ h).1
  | true =>
    cases call with
    | once ty item => exact shape_map (fun _ _ => once_shape) h
    | load ty item =>
      have hgroup : item.options.group = true := hshare
      simp only [Call.program, Setup.load, hgroup] at h
      simp only [aheadOf, insideOf, hshare, hgroup]
      exact shape_map (fun _ _ => once_shape) h
    | _ => cases hshare

/-- A call does not deal with the shared runs outside the one that it leads. -/
lemma share_free (call : Call ρ) : aheadOf call .share = 0 ∧ insideOf call .share = 0 := by
  constructor
  · cases call with
    | load ty item =>
      simp only [aheadOf]
      split <;> rfl
    | _ => rfl
  · unfold insideOf
    split <;> rfl

/-- Contacts with which a call can begin. -/
def Begins (s : Setup) (call : Call ρ) (log : List Contact) : Prop :=
  ∃ log' r, Trace s (call.program s) (log ++ log') r

/-- **What a call has done so far** stays within its limits, ahead of a shared run and inside it. -/
theorem Begins.spends (h : Begins s call log) (k : Kind) :
    spent k (ahead log) ≤ aheadOf call k ∧
      spent k (inside log) ≤ insideOf call k + joining k := by
  obtain ⟨log', r, h⟩ := h
  obtain ⟨hahead, hinside, -⟩ := (call_shape h).spends (share_free call).1 (share_free call).2
  have hinitial : ∀ l : List Contact, ahead l <+: ahead (l ++ log') ∧
      inside l <+: inside (l ++ log') := by
    intro l
    induction l with
    | nil => exact by simp [ahead, inside]
    | cons x l ih =>
      unfold ahead inside at ih ⊢
      cases hx : shares x with
      | true => simp [hx]
      | false => simpa [hx] using ih
  exact ⟨(spent_le_of_initial (hinitial log).1 k).trans (hahead k),
    (spent_le_of_initial (hinitial log).2 k).trans (hinside k)⟩

/-- A call that has begun stands somewhere to the shared runs. -/
lemma Begins.stage (h : Begins s call log) : ∃ stage, stageOf log = some stage := by
  obtain ⟨log', r, h⟩ := h
  obtain ⟨-, -, stage, hstage⟩ := (call_shape h).spends (share_free call).1 (share_free call).2
  rw [stageOf, List.foldlM_append] at hstage
  obtain ⟨stage', hstage', -⟩ := Option.bind_eq_some_iff.mp hstage
  exact ⟨stage', hstage'⟩

end Calls

end Effort

end LayeredCache
