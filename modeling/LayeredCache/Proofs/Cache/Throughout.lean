import LayeredCache.Proofs.Cache.Courses
import LayeredCache.Proofs.Cache.Seeking

/-!
# What holds of all that an operation goes through

Some properties of lists of contacts hold of nothing and of two lists in a row whenever they hold of
each: how many contacts of one kind there are for each of another, or that there are none of a kind.
Such a property holds of all that an operation goes through as soon as it holds of what its parts go
through, so that it has to be proved for the parts only.

## Main definitions

* `Contact.Additive` — properties that hold of nothing and of two lists in a row.
* `Prog.Throughout` — a property holds of all that a program goes through.
* `Setup.Searching`, `Setup.Working` — it holds of the parts of an operation.

## Main results

* `Prog.Throughout.bind` — programs in a row.
* `Setup.has_throughout` — asking whether a key is there.
* `Setup.Searching.seek`, `Setup.Searching.seekStored`, `Setup.Searching.seekShared` — looking for a
  value.
* `Setup.Working.take`, `Setup.Working.once`, `Setup.Working.load` — reading or computing.
-/

set_option autoImplicit false

namespace LayeredCache

open Prog (Trace)

/-- A property of lists of contacts that holds of nothing and of two lists in a row. -/
structure Contact.Additive (P : List Contact → Prop) : Prop where
  nil : P []
  append : ∀ {log log' : List Contact}, P log → P log' → P (log ++ log')

/-- What holds of each contact holds of nothing and of two lists in a row. -/
lemma Contact.additive_forall (p : Contact → Prop) :
    Contact.Additive fun log => ∀ x ∈ log, p x where
  nil := by simp
  append h h' x hx := (List.mem_append.mp hx).elim (h x) (h' x)

/-- A property holds of whatever a program goes through with the tiers of `s`. -/
def Prog.Throughout {α : Type} (s : Setup) (P : List Contact → Prop) (p : Prog α) : Prop :=
  ∀ log r, Trace s p log r → P log

namespace Prog.Throughout

variable {α β : Type} {s : Setup} {P : List Contact → Prop} {p : Prog α} {f : α → Prog β}

/-- A program that is done goes through nothing. -/
lemma done (hP : Contact.Additive P) (a : α) : Throughout s P (.done a) := by
  intro log r h
  cases h
  exact hP.nil

/-- **Programs in a row.** -/
theorem bind (hP : Contact.Additive P) (hp : Throughout s P p) (hf : ∀ a, Throughout s P (f a)) :
    Throughout s P (p.bind f) := by
  intro log r h
  cases Trace.of_bind h with
  | ends first second => exact hP.append (hp _ _ first) (hf _ _ _ second)
  | waits first => exact hp _ _ first
  | crashes first => exact hp _ _ first

/-- What is done with the result of a program goes through nothing. -/
lemma map (hP : Contact.Additive P) (hp : Throughout s P p) (g : α → β) :
    Throughout s P (p.bind fun a => .done (g a)) :=
  hp.bind hP fun _ => .done hP _

end Prog.Throughout

namespace Setup

open Prog (Throughout)

variable {ρ : Type} {s : Setup} {P : List Contact → Prop} {ty : Ty} {key : String}
  {o : CallOptions} {item : Item ρ}

/-- **Asking whether a key is there**, first in the near tier and then in the far tier. -/
theorem has_throughout (hP : Contact.Additive P)
    (hholds : s.usesNear o = true → ∀ served, P [.holds key served])
    (hfetch : Throughout s P (s.fetch key o)) : Throughout s P (s.has key o) := by
  have hasked : ∀ (served : Bool) (next : Outcome → Prog Bool),
      (∀ outcome, ∃ found, next outcome = .done found) →
      Throughout s P (if served then .done true else (s.fetch key o).bind next) := by
    intro served next hnext
    cases served with
    | true => exact .done hP _
    | false =>
      refine hfetch.bind hP fun outcome => ?_
      obtain ⟨found, hfound⟩ := hnext outcome
      rw [hfound]
      exact .done hP _
  unfold Setup.has
  split
  · exact .done hP _
  · cases huses : s.usesNear o with
    | false => exact hasked false _ fun outcome => by cases outcome <;> exact ⟨_, rfl⟩
    | true =>
      intro log r htrace
      cases htrace with
      | holds served rest =>
        refine hP.append (hholds huses served) ?_
        exact hasked served _ (fun outcome => by cases outcome <;> exact ⟨_, rfl⟩) _ _ rest

/-! ## Looking for a value -/

/-- A property holds of the parts of a search for a key with the options `o`: of look-ups, of
dropping the entry, and of the dealings with the shared runs. -/
structure Searching (s : Setup) (P : List Contact → Prop) (key : String) (o : CallOptions) :
    Prop where
  additive : Contact.Additive P
  lookup : ∀ ty, Throughout s P (s.lookup ty key o)
  heal : Throughout s P (s.heal key o)
  collect : ∀ outcome, P [.collect outcome]
  lead : ∀ place, P [.lead place]
  land : ∀ outcome, P [.land outcome]

namespace Searching

variable (h : s.Searching P item.key item.options)
include h

/-- **Looking for a value.** -/
theorem seek : Throughout s P (s.seek ty item) := by
  refine (h.lookup ty).bind h.additive fun reading => ?_
  cases reading with
  | ok v => exact .done h.additive _
  | error f =>
    simp only [seekAfter]
    split
    · exact .done h.additive _
    · split
      · refine h.heal.bind h.additive fun healed => ?_
        cases healed with
        | error g => exact .done h.additive _
        | ok _ => exact (h.lookup ty).map h.additive _
      · exact .done h.additive _

/-- **Looking for a value inside a shared run.** -/
theorem seekStored : Throughout s P (s.seekStored ty item) := by
  refine (h.lookup ty).bind h.additive fun reading => ?_
  cases reading with
  | ok v => exact .done h.additive _
  | error f =>
    simp only [storedAfter]
    split
    · exact .done h.additive _
    · split
      · exact h.heal.map h.additive _
      · exact .done h.additive _

/-- Ending a shared run. -/
lemma landing {α : Type} (outcome : Outcome) (a : α) :
    Throughout s P (.land outcome (.done a)) := by
  intro log r htrace
  cases htrace with
  | land rest =>
    cases rest
    exact h.land outcome

/-- **Looking for a value, alone and then in a shared run.** -/
theorem seekShared : Throughout s P (s.seekShared ty item) := by
  refine (h.lookup ty).bind h.additive fun reading => ?_
  cases reading with
  | ok v => exact .done h.additive _
  | error f =>
    simp only [sharedAfter]
    split
    · intro log r htrace
      cases htrace with
      | collect outcome rest =>
        cases rest
        exact h.collect outcome
      | lead place rest =>
        have hrest : Throughout s P ((s.seekStored ty item).bind (landedUnless ty)) := by
          refine h.seekStored.bind h.additive fun sought => ?_
          cases sought with
          | some outcome => exact h.landing outcome _
          | none => exact .done h.additive _
        exact h.additive.append (h.lead place) (hrest _ _ rest)
      | waits => exact h.additive.nil
    · exact .done h.additive _

end Searching

/-! ## Computing a value -/

/-- A property holds of all parts of an operation on a key with the options `o`: of those of a
search, of asking whether the key is there, of writes, and of computing a value. -/
structure Working (s : Setup) (P : List Contact → Prop) (key : String) (o : CallOptions) : Prop
    extends Searching s P key o where
  holds : s.usesNear o = true → ∀ served, P [.holds key served]
  fetch : Throughout s P (s.fetch key o)
  store : ∀ ty v data, Throughout s P (s.store ty key v data o)
  computes : ∀ mode, P [.count (.load mode)]
  starts : P [.startLoad]
  given : ∀ answer, P [.given answer]

namespace Working

/-- **Setting a value.** -/
lemma set (h : s.Working P key o) {v : Value} : Throughout s P (s.set ty key v o) := by
  unfold Setup.set
  split
  · exact .done h.additive _
  · exact h.store _ _ _

/-- Asking whether a key is there. -/
lemma has (h : s.Working P key o) : Throughout s P (s.has key o) :=
  has_throughout h.additive h.holds h.fetch

variable (h : s.Working P item.key item.options)
include h

/-- Computing a value. -/
lemma produce (mode : String) : Throughout s P (produce item mode) := by
  intro log r htrace
  cases produce_trace htrace with
  | plain => exact h.computes mode
  | given => exact h.additive.append (h.computes mode) (h.additive.append h.starts (h.given _))
  | awaits => exact h.additive.append (h.computes mode) h.starts

/-- Writing what was computed. -/
lemma keep (produced : Except Failure Value) : Throughout s P (s.keep ty item produced) := by
  cases produced with
  | error f => exact .done h.additive _
  | ok v =>
    simp only [Setup.keep]
    cases s.envelope.encode ty v with
    | error f => exact .done h.additive _
    | ok data => exact (h.store _ _ _).map h.additive _

/-- **Making a value.** -/
theorem make (mode : String) : Throughout s P (s.make ty item mode) :=
  (h.produce mode).bind h.additive h.keep

/-- **Reading or computing.** -/
theorem take : Throughout s P (s.take ty item) := by
  rw [take_eq]
  refine h.seek.bind h.additive fun sought => ?_
  cases sought with
  | some r => exact .done h.additive _
  | none =>
    rw [orCompute, compute_eq]
    exact (h.make _).map h.additive _

/-- **Reading or computing in a shared run.** -/
theorem once : Throughout s P (s.once ty item) := by
  rw [once_eq_seek]
  refine h.seekShared.bind h.additive fun sought => ?_
  cases sought with
  | some r => exact .done h.additive _
  | none =>
    rw [orComputeShared, computeStored_eq_make]
    exact ((h.make _).map h.additive _).bind h.additive fun outcome => h.landing outcome _

/-- **Reading or computing**, in a shared run when the item asks for one. -/
theorem load : Throughout s P (s.load ty item) := by
  unfold Setup.load
  split
  · exact h.once
  · exact h.take

end Working

end Setup

end LayeredCache
