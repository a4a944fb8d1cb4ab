import LayeredCache.Cache.Program
import Mathlib.Tactic.Lemma

/-!
# Looking for a value, and making one

Reading or computing has two halves. At first the caller looks for the value, and may drop an entry
on the way; either this gives an answer, or the value is missing. Then the value is made: computed,
encoded and written. Reading or computing alone and inside a shared run differ in the first half
and in what is done with the value in the end; the second half is the same.

## Main definitions

* `Setup.seek`, `Setup.seekStored`, `Setup.seekShared` — the first half of reading or computing
  alone, of the body of a shared run, and of a shared load.
* `Setup.make` — the second half.

## Main results

* `Prog.bind_assoc` — three programs in a row.
* `Setup.compute_eq`, `Setup.computeStored_eq_make` — computing is making.
* `Setup.take_eq`, `Setup.flight_eq_seek`, `Setup.once_eq_seek` — the operations in two halves.
-/

set_option autoImplicit false

namespace LayeredCache

/-- Three programs in a row. -/
theorem Prog.bind_assoc {α β γ : Type} (p : Prog α) (f : α → Prog β) (g : β → Prog γ) :
    (p.bind f).bind g = p.bind fun a => (f a).bind g := by
  induction p with
  | done a => rfl
  | find key next ih => simp only [bind, ih]
  | holds key next ih => simp only [bind, ih]
  | put key content ttl next ih => simp only [bind, ih]
  | drop key next ih => simp only [bind, ih]
  | call request next ih => simp only [bind, ih]
  | tally found next ih => simp only [bind, ih]
  | count event next ih => simp only [bind, ih]
  | startLoad next ih => simp only [bind, ih]
  | awaitLoad next ih => simp only [bind, ih]
  | join key next ih => simp only [bind, ih]
  | land outcome next ih => simp only [bind, ih]

namespace Setup

variable {ρ : Type} (s : Setup) (ty : Ty) (item : Item ρ) (mode : String)

/-! ## Making a value -/

/-- What is done with a value that was written. -/
def written (v : Value) (data : Bytes) : Except Failure Unit → Except Failure (Value × Bytes)
  | .error f => .error f
  | .ok _ => .ok (v, data)

/-- Encodes a value that was computed and writes it. -/
def keep : Except Failure Value → Prog (Except Failure (Value × Bytes))
  | .error f => .done (.error f)
  | .ok v =>
    match s.envelope.encode ty v with
    | .error f => .done (.error (.envelope f))
    | .ok data =>
      (s.store ty item.key v data item.options).bind fun r => .done (written v data r)

/-- Makes the value of an item, with its stored form. -/
def make : Prog (Except Failure (Value × Bytes)) :=
  (produce item mode).bind (s.keep ty item)

/-- **Computing a value** is making it. -/
theorem compute_eq : s.compute ty item =
    (s.make ty item "take").bind fun r => .done (r.map fun made => some made.1) := by
  rw [make, Prog.bind_assoc]
  refine congrArg ((produce item "take").bind ·) (funext fun produced => ?_)
  cases produced with
  | error f => rfl
  | ok v =>
    show (s.set ty item.key v item.options).bind _ = _
    simp only [set, keep]
    cases s.envelope.encode ty v with
    | error f => rfl
    | ok data =>
      simp only
      rw [Prog.bind_assoc]
      refine congrArg (Prog.bind _ ·) (funext fun stored => ?_)
      cases stored <;> rfl

/-- **Computing a value inside a shared run** is making it. -/
theorem computeStored_eq_make : s.computeStored ty item =
    (s.make ty item "once").bind fun r => .done (r.map Prod.snd) := by
  rw [make, Prog.bind_assoc]
  refine congrArg ((produce item "once").bind ·) (funext fun produced => ?_)
  cases produced with
  | error f => rfl
  | ok v =>
    simp only [keep]
    cases s.envelope.encode ty v with
    | error f => rfl
    | ok data =>
      simp only
      rw [Prog.bind_assoc]
      refine congrArg (Prog.bind _ ·) (funext fun stored => ?_)
      cases stored <;> rfl

/-! ## Looking for a value -/

/-- What a look-up answers, or nothing when the value is missing. -/
def unlessMissing : Except Failure (Option Value) → Option (Except Failure (Option Value))
  | .ok v => some (.ok v)
  | .error f => if f.isMissing then none else some (.error f)

/-- Looks a key up again once its entry was dropped. -/
def seekAgain : Except Failure Unit → Prog (Option (Except Failure (Option Value)))
  | .error f => .done (some (.error f))
  | .ok _ => (s.lookup ty item.key item.options).bind fun r => .done (unlessMissing r)

/-- What follows the first look-up. -/
def seekAfter : Except Failure (Option Value) → Prog (Option (Except Failure (Option Value)))
  | .ok v => .done (some (.ok v))
  | .error f =>
    if f.isMissing then .done none
    else if f.isCorruption then (s.heal item.key item.options).bind (s.seekAgain ty item)
    else .done (some (.error f))

/-- Looks for the value of an item: gives the answer, or nothing when the value has to be made. -/
def seek : Prog (Option (Except Failure (Option Value))) :=
  (s.lookup ty item.key item.options).bind (s.seekAfter ty item)

/-- Makes the value unless there is an answer. -/
def orCompute : Option (Except Failure (Option Value)) → Prog (Except Failure (Option Value))
  | some r => .done r
  | none => s.compute ty item

/-- **Reading or computing** looks for the value and then makes it. -/
theorem take_eq : s.take ty item = (s.seek ty item).bind (s.orCompute ty item) := by
  rw [seek, Prog.bind_assoc]
  refine congrArg ((s.lookup ty item.key item.options).bind ·) (funext fun reading => ?_)
  cases reading with
  | ok v => rfl
  | error f =>
    simp only [seekAfter]
    split
    · rfl
    · split
      · rw [Prog.bind_assoc]
        refine congrArg (Prog.bind _ ·) (funext fun healed => ?_)
        cases healed with
        | error g => rfl
        | ok _ =>
          show Prog.bind _ _ = Prog.bind (Prog.bind _ _) _
          rw [Prog.bind_assoc]
          refine congrArg (Prog.bind _ ·) (funext fun again => ?_)
          cases again with
          | ok v => rfl
          | error g =>
            simp only [Prog.bind, unlessMissing]
            split <;> rfl
      · rfl

/-- The stored form of a value that was found. -/
def restored : Option Value → Outcome
  | none => .ok []
  | some v =>
    match s.envelope.encode ty v with
    | .error f => .error (.envelope f)
    | .ok data => .ok data

/-- What a shared run does once an entry was dropped: the value has to be made. -/
def unlessHealed : Except Failure Unit → Option Outcome
  | .error f => some (.error f)
  | .ok _ => none

/-- What follows the look-up of a shared run. -/
def storedAfter : Except Failure (Option Value) → Prog (Option Outcome)
  | .ok v => .done (some (s.restored ty v))
  | .error f =>
    if f.isMissing then .done none
    else if f.isCorruption then
      (s.heal item.key item.options).bind fun r => .done (unlessHealed r)
    else .done (some (.error f))

/-- Looks for the value of an item inside a shared run: gives the outcome, or nothing when the value
has to be made. -/
def seekStored : Prog (Option Outcome) :=
  (s.lookup ty item.key item.options).bind (s.storedAfter ty item)

/-- Makes the value unless there is an outcome. -/
def orComputeStored : Option Outcome → Prog Outcome
  | some outcome => .done outcome
  | none => s.computeStored ty item

/-- **The body of a shared run** looks for the value and then makes it. -/
theorem flight_eq_seek :
    s.flight ty item = (s.seekStored ty item).bind (s.orComputeStored ty item) := by
  rw [seekStored, Prog.bind_assoc]
  refine congrArg ((s.lookup ty item.key item.options).bind ·) (funext fun reading => ?_)
  cases reading with
  | ok found =>
    cases found with
    | none => rfl
    | some v =>
      simp only [storedAfter, restored, Prog.bind, orComputeStored]
      cases s.envelope.encode ty v <;> rfl
  | error f =>
    simp only [storedAfter]
    split
    · rfl
    · split
      · rw [Prog.bind_assoc]
        refine congrArg (Prog.bind _ ·) (funext fun healed => ?_)
        cases healed <;> rfl
      · rfl

/-- The end of a caller's own run, once its outcome is known. -/
def landed (outcome : Outcome) : Prog (Except Failure (Option Value)) :=
  .land outcome (.done (receive ty outcome))

/-- The end of a caller's own run, unless the value has to be made. -/
def landedUnless : Option Outcome → Prog (Option (Except Failure (Option Value)))
  | some outcome => .land outcome (.done (some (receive ty outcome)))
  | none => .done none

/-- Joins the shared run of an item and, if it is to run itself, looks for the value there. -/
def seekRun : Prog (Option (Except Failure (Option Value))) :=
  .join item.key fun
    | some outcome => .done (some (receive ty outcome))
    | none => (s.seekStored ty item).bind (landedUnless ty)

/-- What follows the first look-up of a shared load. -/
def sharedAfter : Except Failure (Option Value) → Prog (Option (Except Failure (Option Value)))
  | .ok v => .done (some (.ok v))
  | .error f =>
    if f.isMissing || f.isCorruption then s.seekRun ty item else .done (some (.error f))

/-- Looks for the value of an item, at first alone and then in the shared run: gives the answer, or
nothing when the caller has to make the value inside the run. -/
def seekShared : Prog (Option (Except Failure (Option Value))) :=
  (s.lookup ty item.key item.options).bind (s.sharedAfter ty item)

/-- Makes the value inside the shared run unless there is an answer. -/
def orComputeShared : Option (Except Failure (Option Value)) → Prog (Except Failure (Option Value))
  | some r => .done r
  | none => (s.computeStored ty item).bind (landed ty)

/-- **A shared load** looks for the value and then makes it inside its shared run. -/
theorem once_eq_seek :
    s.once ty item = (s.seekShared ty item).bind (s.orComputeShared ty item) := by
  rw [seekShared, Prog.bind_assoc]
  refine congrArg ((s.lookup ty item.key item.options).bind ·) (funext fun reading => ?_)
  cases reading with
  | ok v => rfl
  | error f =>
    simp only [sharedAfter]
    split
    · refine congrArg (Prog.join item.key) (funext fun received => ?_)
      cases received with
      | some outcome => rfl
      | none =>
        show (s.flight ty item).bind (landed ty) = Prog.bind (Prog.bind _ _) _
        rw [flight_eq_seek, Prog.bind_assoc, Prog.bind_assoc]
        refine congrArg (Prog.bind _ ·) (funext fun sought => ?_)
        cases sought <;> rfl
    · rfl

end Setup

end LayeredCache
