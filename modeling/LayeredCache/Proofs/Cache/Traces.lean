import LayeredCache.Proofs.Cache.Requests
import LayeredCache.Proofs.Crossing.Steps
import LayeredCache.Proofs.Flight.Order

/-!
# What a program exchanges with its surroundings

Each request of a program is answered: by a tier, by the loader, by the table of shared runs. The
list of requests with their answers is what a caller can be said to have done, whoever else used
the cache in between. A program alone determines which lists are possible, so that a statement
about all of them holds whatever the tiers answer and whatever other callers do.

## Main definitions

* `Contact` — a request with its answer.
* `Prog.contact`, `Prog.contacts` — the contact of a step, and those of a run.
* `Prog.Trace` — a program can go through a list of contacts and come to a progress.
* `Prog.Proceeds` — a program takes its steps while others use the cache.

## Main results

* `Prog.Trace.of_bind` — programs one after the other.
* `Prog.Trace.resume` — a program that is polled again.
* `Prog.Trace.not_longer` — a program that has ended does not go on.
* `Prog.Trace.of_goes`, `Prog.Trace.of_stops`, `Prog.trace_contacts` — steps and runs are traces.
* `Prog.Proceeds.trace`, `Prog.proceeds_run` — so are the steps of a program among others.
-/

set_option autoImplicit false

namespace LayeredCache

/-- A request of a program with its answer. -/
inductive Contact where
  /-- It looked a key up in the near tier. -/
  | find (key : String) (found : Option Content)
  /-- It asked whether the near tier serves a key. -/
  | holds (key : String) (served : Bool)
  /-- It wrote into the near tier, if the clock could represent the deadline. -/
  | put (key : String) (content : Content) (ttl : Span) (kept : Bool)
  /-- It removed a key from the near tier. -/
  | drop (key : String)
  /-- It sent a request to the far tier. -/
  | ask (request : Far.Request) (answer : Far.Answer request)
  /-- It counted a far look-up. -/
  | tally (found : Bool)
  /-- It counted an event. -/
  | count (event : Event)
  /-- It started its loader. -/
  | startLoad
  /-- Its loader gave what it gives. -/
  | given (answer : Except LoadFailure Value)
  /-- It received the outcome of another caller's run. -/
  | collect (outcome : Outcome)
  /-- It began the shared run at a place. -/
  | lead (place : Nat)
  /-- It ended its shared run. -/
  | land (outcome : Outcome)

/-- The contacts of one caller, after those of some caller have grown. -/
lemma Contact.own_append (log : List (Flight.Caller × Contact)) (xs : List Contact)
    (i w : Flight.Caller) :
    ((log ++ xs.map (i, ·)).filter fun e => e.1 = w).map Prod.snd =
      (log.filter fun e => e.1 = w).map Prod.snd ++ if w = i then xs else [] := by
  rw [List.filter_append, List.map_append]
  refine congrArg (_ ++ ·) ?_
  by_cases hw : w = i
  · subst hw
    simp [List.filter_map, Function.comp_def]
  · simp [List.filter_map, Function.comp_def, hw, Ne.symm hw]

namespace Prog

variable {α β σ : Type} [FarStore σ]

/-- The contact of a program's first step, if it makes one. Look-ups, writes and requests are no
contacts when their tier is not there. -/
def contact (visit : Visit) : Prog α → Cache σ → Option Contact
  | .done _, _ => none
  | .find key _, c => c.near.map fun t => .find key (t.get visit.now key).1
  | .holds key _, c => some (.holds key (c.near.any fun t => t.has visit.now key))
  | .put key content ttl _, c =>
    c.near.map fun t => .put key content ttl (t.put visit.now key content ttl).isSome
  | .drop key _, _ => some (.drop key)
  | .call request _, c =>
    c.far.map fun far => .ask request (FarStore.answer far visit.now request).1
  | .tally found _, _ => some (.tally found)
  | .count event _, _ => some (.count event)
  | .startLoad _, _ => some .startLoad
  | .awaitLoad _, _ => visit.loaded.map .given
  | .join key _, c =>
    let g := c.flights.join visit.caller key
    match g.turn visit.caller with
    | .collect outcome => some (.collect outcome)
    | .start => (g.seat? visit.caller).map .lead
    | _ => none
  | .land outcome _, _ => some (.land outcome)

/-- The contacts of a program until it ends or has to wait. -/
def contacts (visit : Visit) : Prog α → Cache σ → List Contact
  | .done _, _ => []
  | .find key next, c =>
    match c.near with
    | none => (next none).contacts visit c
    | some t =>
      let (found, t) := t.get visit.now key
      .find key found :: (next found).contacts visit { c with near := some t }
  | .holds key next, c =>
    let served := c.near.any fun t => t.has visit.now key
    .holds key served :: (next served).contacts visit c
  | .put key content ttl next, c =>
    match c.near with
    | none => next.contacts visit c
    | some t =>
      match t.put visit.now key content ttl with
      | none => [.put key content ttl false]
      | some t => .put key content ttl true :: next.contacts visit { c with near := some t }
  | .drop key next, c => .drop key :: next.contacts visit (c.deleteNear key)
  | .call request next, c =>
    match c.far with
    | none => (next (.error .missing)).contacts visit c
    | some far =>
      let (answer, far) := FarStore.answer far visit.now request
      let c := { c with far := some far }
      match answer with
      | .reply value => .ask request (.reply value) :: (next (.ok value)).contacts visit c
      | .failure cause => .ask request (.failure cause) :: (next (.error cause)).contacts visit c
      | .crash => [.ask request .crash]
  | .tally found next, c => .tally found :: next.contacts visit (c.recordTally found)
  | .count event next, c => .count event :: next.contacts visit (c.recordEvent event)
  | .startLoad next, c =>
    .startLoad :: next.contacts visit { c with started := c.started ++ [visit.caller] }
  | .awaitLoad next, c =>
    match visit.loaded with
    | some answer => .given answer :: (next answer).contacts visit c
    | none => []
  | .join key next, c =>
    let c := { c with flights := c.flights.join visit.caller key }
    match c.flights.turn visit.caller with
    | .collect outcome =>
      .collect outcome ::
        (next (some outcome)).contacts visit { c with flights := c.flights.leave visit.caller }
    | .start =>
      ((c.flights.seat? visit.caller).map .lead).toList ++
        (next none).contacts visit { c with flights := c.flights.start visit.caller }
    | _ => []
  | .land outcome next, c =>
    .land outcome :: next.contacts visit { c with flights := c.flights.land visit.caller outcome }

/-- The contacts of what is left after a step. -/
def Step.contacts (visit : Visit) : Step α × Cache σ → List Contact
  | (.stops _, _) => []
  | (.goes rest, c) => rest.contacts visit c

/-- **The contacts of a run** are that of its first step and those of what is left. -/
theorem contacts_eq_step (visit : Visit) (p : Prog α) (c : Cache σ) :
    p.contacts visit c = (p.contact visit c).toList ++ Step.contacts visit (p.step visit c) := by
  cases p with
  | find key next =>
    cases hnear : c.near <;> simp only [contacts, contact, step, hnear, Step.contacts] <;> rfl
  | put key content ttl next =>
    cases hnear : c.near with
    | none => simp only [contacts, contact, step, hnear, Step.contacts]; rfl
    | some t =>
      cases hput : t.put visit.now key content ttl <;>
        simp [contacts, contact, step, hnear, hput, Step.contacts]
  | call request next =>
    cases hfar : c.far with
    | none => simp only [contacts, contact, step, hfar, Step.contacts]; rfl
    | some far =>
      simp only [contacts, contact, step, hfar, Option.map_some]
      rcases FarStore.answer far visit.now request with ⟨_ | _ | _, far'⟩ <;> rfl
  | awaitLoad next =>
    cases hloaded : visit.loaded <;>
      simp only [contacts, contact, step, hloaded, Step.contacts] <;> rfl
  | join key next =>
    simp only [contacts, contact, step]
    cases (c.flights.join visit.caller key).turn visit.caller <;> rfl
  | _ => rfl

/-- A step keeps what programs know of the cache. -/
lemma setup_step (visit : Visit) (p : Prog α) (c : Cache σ) :
    (p.step visit c).2.setup = c.setup := by
  cases p with
  | find key next => cases hnear : c.near <;> simp [step, hnear, Cache.setup]
  | put key content ttl next =>
    cases hnear : c.near with
    | none => simp [step, hnear, Cache.setup]
    | some t =>
      cases hput : t.put visit.now key content ttl <;> simp [step, hnear, hput, Cache.setup]
  | drop key next => cases hnear : c.near <;> simp [step, hnear, Cache.setup, Cache.deleteNear]
  | call request next =>
    cases hfar : c.far with
    | none => simp [step, hfar, Cache.setup]
    | some far =>
      simp only [step, hfar]
      rcases FarStore.answer far visit.now request with ⟨_ | _ | _, far'⟩ <;>
        simp [Cache.setup, hfar]
  | awaitLoad next => cases hloaded : visit.loaded <;> simp [step, hloaded]
  | join key next =>
    simp only [step]
    cases (c.flights.join visit.caller key).turn visit.caller <;> rfl
  | _ => rfl

/-- A run keeps what programs know of the cache. -/
lemma setup_run (visit : Visit) (p : Prog α) (c : Cache σ) :
    (p.run visit c).2.setup = c.setup := by
  induction p using step_induction (σ := σ) generalizing c with
  | h p ih =>
    rw [run_eq_step, ← setup_step visit p c]
    rcases hstep : p.step visit c with ⟨how | rest, c'⟩
    · rfl
    · exact ih visit c rest c' hstep c'

/-- A poll keeps what programs know of the cache. -/
lemma setup_visit (visit : Visit) (p : Prog α) (c : Cache σ) :
    (p.visit visit c).2.setup = c.setup := by
  rw [← setup_run visit p c, Prog.visit]
  rcases p.run visit c with ⟨_ | _ | _, c'⟩ <;> rfl

/-- A poll comes as far as a run. -/
lemma progress_visit (visit : Visit) (p : Prog α) (c : Cache σ) :
    (p.visit visit c).1 = (p.run visit c).1 := by
  rw [Prog.visit]
  rcases p.run visit c with ⟨_ | _ | _, c'⟩ <;> rfl

/-! ## What a program can go through -/

/-- With the tiers of `s`, a program can go through a list of contacts and come to a progress. -/
inductive Trace {α : Type} (s : Setup) : Prog α → List Contact → Progress α → Prop where
  | done (a : α) : Trace s (.done a) [] (.finished a)
  | find {key : String} {next : Option Content → Prog α} {log : List Contact} {r : Progress α}
      (there : s.near = true) (found : Option Content) (rest : Trace s (next found) log r) :
      Trace s (.find key next) (.find key found :: log) r
  | findNone {key : String} {next : Option Content → Prog α} {log : List Contact} {r : Progress α}
      (gone : s.near = false) (rest : Trace s (next none) log r) : Trace s (.find key next) log r
  | holds {key : String} {next : Bool → Prog α} {log : List Contact} {r : Progress α}
      (served : Bool) (rest : Trace s (next served) log r) :
      Trace s (.holds key next) (.holds key served :: log) r
  | put {key : String} {content : Content} {ttl : Span} {next : Prog α} {log : List Contact}
      {r : Progress α} (there : s.near = true) (rest : Trace s next log r) :
      Trace s (.put key content ttl next) (.put key content ttl true :: log) r
  | putCrashed {key : String} {content : Content} {ttl : Span} {next : Prog α}
      (there : s.near = true) :
      Trace s (.put key content ttl next) [.put key content ttl false] .crashed
  | putNone {key : String} {content : Content} {ttl : Span} {next : Prog α} {log : List Contact}
      {r : Progress α} (gone : s.near = false) (rest : Trace s next log r) :
      Trace s (.put key content ttl next) log r
  | drop {key : String} {next : Prog α} {log : List Contact} {r : Progress α}
      (rest : Trace s next log r) : Trace s (.drop key next) (.drop key :: log) r
  | reply {request : Far.Request} {next : Except Failure request.Reply → Prog α}
      {log : List Contact} {r : Progress α} (there : s.far = true) (value : request.Reply)
      (rest : Trace s (next (.ok value)) log r) :
      Trace s (.call request next) (.ask request (.reply value) :: log) r
  | failure {request : Far.Request} {next : Except Failure request.Reply → Prog α}
      {log : List Contact} {r : Progress α} (there : s.far = true) (cause : Failure)
      (rest : Trace s (next (.error cause)) log r) :
      Trace s (.call request next) (.ask request (.failure cause) :: log) r
  | callCrashed {request : Far.Request} {next : Except Failure request.Reply → Prog α}
      (there : s.far = true) : Trace s (.call request next) [.ask request .crash] .crashed
  | callNone {request : Far.Request} {next : Except Failure request.Reply → Prog α}
      {log : List Contact} {r : Progress α} (gone : s.far = false)
      (rest : Trace s (next (.error .missing)) log r) : Trace s (.call request next) log r
  | tally {found : Bool} {next : Prog α} {log : List Contact} {r : Progress α}
      (rest : Trace s next log r) : Trace s (.tally found next) (.tally found :: log) r
  | count {event : Event} {next : Prog α} {log : List Contact} {r : Progress α}
      (rest : Trace s next log r) : Trace s (.count event next) (.count event :: log) r
  | startLoad {next : Prog α} {log : List Contact} {r : Progress α} (rest : Trace s next log r) :
      Trace s (.startLoad next) (.startLoad :: log) r
  | given {next : Except LoadFailure Value → Prog α} {log : List Contact} {r : Progress α}
      (answer : Except LoadFailure Value) (rest : Trace s (next answer) log r) :
      Trace s (.awaitLoad next) (.given answer :: log) r
  | awaits (next : Except LoadFailure Value → Prog α) :
      Trace s (.awaitLoad next) [] (.blocked (.awaitLoad next))
  | collect {key : String} {next : Option Outcome → Prog α} {log : List Contact} {r : Progress α}
      (outcome : Outcome) (rest : Trace s (next (some outcome)) log r) :
      Trace s (.join key next) (.collect outcome :: log) r
  | lead {key : String} {next : Option Outcome → Prog α} {log : List Contact} {r : Progress α}
      (place : Nat) (rest : Trace s (next none) log r) :
      Trace s (.join key next) (.lead place :: log) r
  | waits (key : String) (next : Option Outcome → Prog α) :
      Trace s (.join key next) [] (.blocked (.join key next))
  | land {outcome : Outcome} {next : Prog α} {log : List Contact} {r : Progress α}
      (rest : Trace s next log r) : Trace s (.land outcome next) (.land outcome :: log) r

namespace Trace

variable {s : Setup} {visit : Visit} {p rest : Prog α} {f : α → Prog β} {c c' : Cache σ}
  {log log' : List Contact} {r : Progress α} {r' : Progress β}

/-- How two programs in a row go through a list of contacts. -/
inductive InRow (s : Setup) (p : Prog α) (f : α → Prog β) : List Contact → Progress β → Prop where
  /-- The first one ends and the second one goes on. -/
  | ends {a : α} {log log' : List Contact} {r : Progress β} (first : Trace s p log (.finished a))
      (second : Trace s (f a) log' r) : InRow s p f (log ++ log') r
  /-- The first one has to wait. -/
  | waits {rest : Prog α} {log : List Contact} (first : Trace s p log (.blocked rest)) :
      InRow s p f log (.blocked (rest.bind f))
  /-- The first one crashes. -/
  | crashes {log : List Contact} (first : Trace s p log .crashed) : InRow s p f log .crashed

/-- One more contact before those of two programs in a row. -/
lemma InRow.cons {q : Prog α} (x : Contact)
    (h : InRow s p f log r') (hstep : ∀ log r, Trace s p log r → Trace s q (x :: log) r) :
    InRow s q f (x :: log) r' := by
  cases h with
  | ends first second => exact .ends (hstep _ _ first) second
  | waits first => exact .waits (hstep _ _ first)
  | crashes first => exact .crashes (hstep _ _ first)

/-- A silent request before two programs in a row. -/
lemma InRow.silent {q : Prog α}
    (h : InRow s p f log r') (hstep : ∀ log r, Trace s p log r → Trace s q log r) :
    InRow s q f log r' := by
  cases h with
  | ends first second => exact .ends (hstep _ _ first) second
  | waits first => exact .waits (hstep _ _ first)
  | crashes first => exact .crashes (hstep _ _ first)

/-- **Programs in a row** go through the contacts of the first one and then those of the second. -/
theorem of_bind (h : Trace s (p.bind f) log r') : InRow s p f log r' := by
  induction p generalizing log with
  | done a => exact .ends (.done a) h
  | find key next ih =>
    cases h with
    | find there found rest => exact (ih found rest).cons _ fun _ _ => .find there found
    | findNone gone rest => exact (ih none rest).silent fun _ _ => .findNone gone
  | holds key next ih =>
    cases h with
    | holds served rest => exact (ih served rest).cons _ fun _ _ => .holds served
  | put key content ttl next ih =>
    cases h with
    | put there rest => exact (ih rest).cons _ fun _ _ => .put there
    | putCrashed there => exact .crashes (.putCrashed there)
    | putNone gone rest => exact (ih rest).silent fun _ _ => .putNone gone
  | drop key next ih =>
    cases h with
    | drop rest => exact (ih rest).cons _ fun _ _ => .drop
  | call request next ih =>
    cases h with
    | reply there value rest => exact (ih _ rest).cons _ fun _ _ => .reply there value
    | failure there cause rest => exact (ih _ rest).cons _ fun _ _ => .failure there cause
    | callCrashed there => exact .crashes (.callCrashed there)
    | callNone gone rest => exact (ih _ rest).silent fun _ _ => .callNone gone
  | tally found next ih =>
    cases h with
    | tally rest => exact (ih rest).cons _ fun _ _ => .tally
  | count event next ih =>
    cases h with
    | count rest => exact (ih rest).cons _ fun _ _ => .count
  | startLoad next ih =>
    cases h with
    | startLoad rest => exact (ih rest).cons _ fun _ _ => .startLoad
  | awaitLoad next ih =>
    cases h with
    | given answer rest => exact (ih answer rest).cons _ fun _ _ => .given answer
    | awaits => exact .waits (.awaits next)
  | join key next ih =>
    cases h with
    | collect outcome rest => exact (ih _ rest).cons _ fun _ _ => .collect outcome
    | lead place rest => exact (ih _ rest).cons _ fun _ _ => .lead place
    | waits => exact .waits (.waits key next)
  | land outcome next ih =>
    cases h with
    | land rest => exact (ih rest).cons _ fun _ _ => .land

/-- **A program that is polled again** goes on where it had to wait. -/
theorem resume (h : Trace s p log (.blocked rest)) (h' : Trace s rest log' r) :
    Trace s p (log ++ log') r := by
  generalize hb : (Progress.blocked rest : Progress α) = b at h
  induction h with
  | done a => cases hb
  | find there found _ ih => exact .find there found (ih hb)
  | findNone gone _ ih => exact .findNone gone (ih hb)
  | holds served _ ih => exact .holds served (ih hb)
  | put there _ ih => exact .put there (ih hb)
  | putCrashed there => cases hb
  | putNone gone _ ih => exact .putNone gone (ih hb)
  | drop _ ih => exact .drop (ih hb)
  | reply there value _ ih => exact .reply there value (ih hb)
  | failure there cause _ ih => exact .failure there cause (ih hb)
  | callCrashed there => cases hb
  | callNone gone _ ih => exact .callNone gone (ih hb)
  | tally _ ih => exact .tally (ih hb)
  | count _ ih => exact .count (ih hb)
  | startLoad _ ih => exact .startLoad (ih hb)
  | given answer _ ih => exact .given answer (ih hb)
  | awaits next => cases hb; exact h'
  | collect outcome _ ih => exact .collect outcome (ih hb)
  | lead place _ ih => exact .lead place (ih hb)
  | waits key next => cases hb; exact h'
  | land _ ih => exact .land (ih hb)

/-- A program that has ended without a contact can do nothing else. -/
lemma of_silent {a : α} (h : Trace s p [] (.finished a)) (h' : Trace s p log r) :
    log = [] ∧ r = .finished a := by
  induction p with
  | done b =>
    cases h
    cases h'
    exact ⟨rfl, rfl⟩
  | find key next ih =>
    cases h with
    | findNone gone rest =>
      cases h' with
      | find there _ _ => cases there.symm.trans gone
      | findNone _ rest' => exact ih none rest rest'
  | put key content ttl next ih =>
    cases h with
    | putNone gone rest =>
      cases h' with
      | put there _ => cases there.symm.trans gone
      | putCrashed there => cases there.symm.trans gone
      | putNone _ rest' => exact ih rest rest'
  | call request next ih =>
    cases h with
    | callNone gone rest =>
      cases h' with
      | reply there _ _ => cases there.symm.trans gone
      | failure there _ _ => cases there.symm.trans gone
      | callCrashed there => cases there.symm.trans gone
      | callNone _ rest' => exact ih _ rest rest'
  | _ => cases h

/-- **What is left after a contact** is the same in all courses of a program that begin with this
contact, if the program ends in one of them. -/
lemma exists_common_rest {a : α} {x : Contact} (h : Trace s p (x :: log) (.finished a))
    (h' : Trace s p (x :: log') r) : ∃ q, Trace s q log (.finished a) ∧ Trace s q log' r := by
  induction p with
  | done b => cases h
  | find key next ih =>
    cases h with
    | find there found rest =>
      cases h' with
      | find _ _ rest' => exact ⟨_, rest, rest'⟩
      | findNone gone _ => cases there.symm.trans gone
    | findNone gone rest =>
      cases h' with
      | find there _ _ => cases there.symm.trans gone
      | findNone _ rest' => exact ih none rest rest'
  | holds key next ih =>
    cases h with
    | holds served rest =>
      cases h' with
      | holds _ rest' => exact ⟨_, rest, rest'⟩
  | put key content ttl next ih =>
    cases h with
    | put there rest =>
      cases h' with
      | put _ rest' => exact ⟨_, rest, rest'⟩
      | putNone gone _ => cases there.symm.trans gone
    | putNone gone rest =>
      cases h' with
      | put there _ => cases there.symm.trans gone
      | putCrashed there => cases there.symm.trans gone
      | putNone _ rest' => exact ih rest rest'
  | drop key next ih =>
    cases h with
    | drop rest =>
      cases h' with
      | drop rest' => exact ⟨_, rest, rest'⟩
  | call request next ih =>
    cases h with
    | reply there value rest =>
      cases h' with
      | reply _ _ rest' => exact ⟨_, rest, rest'⟩
      | callNone gone _ => cases there.symm.trans gone
    | failure there cause rest =>
      cases h' with
      | failure _ _ rest' => exact ⟨_, rest, rest'⟩
      | callNone gone _ => cases there.symm.trans gone
    | callNone gone rest =>
      cases h' with
      | reply there _ _ => cases there.symm.trans gone
      | failure there _ _ => cases there.symm.trans gone
      | callCrashed there => cases there.symm.trans gone
      | callNone _ rest' => exact ih _ rest rest'
  | tally found next ih =>
    cases h with
    | tally rest =>
      cases h' with
      | tally rest' => exact ⟨_, rest, rest'⟩
  | count event next ih =>
    cases h with
    | count rest =>
      cases h' with
      | count rest' => exact ⟨_, rest, rest'⟩
  | startLoad next ih =>
    cases h with
    | startLoad rest =>
      cases h' with
      | startLoad rest' => exact ⟨_, rest, rest'⟩
  | awaitLoad next ih =>
    cases h with
    | given answer rest =>
      cases h' with
      | given _ rest' => exact ⟨_, rest, rest'⟩
  | join key next ih =>
    cases h with
    | collect outcome rest =>
      cases h' with
      | collect _ rest' => exact ⟨_, rest, rest'⟩
    | lead place rest =>
      cases h' with
      | lead _ rest' => exact ⟨_, rest, rest'⟩
  | land outcome next ih =>
    cases h with
    | land rest =>
      cases h' with
      | land rest' => exact ⟨_, rest, rest'⟩

/-- **A program that has ended does not go on.**

**Proof sketch.** Induction on the contacts of the course that has ended. -/
theorem not_longer {a : α} (h : Trace s p log (.finished a)) (h' : Trace s p (log ++ log') r) :
    log' = [] ∧ r = .finished a := by
  induction log generalizing p with
  | nil => exact h.of_silent h'
  | cons x log ih =>
    obtain ⟨q, hq, hq'⟩ := h.exists_common_rest h'
    exact ih hq hq'

/-- Every program can go through something. -/
lemma exists_trace (s : Setup) (p : Prog α) : ∃ log r, Trace s p log r := by
  induction p with
  | done a => exact ⟨_, _, .done a⟩
  | find key next ih =>
    obtain ⟨log, r, h⟩ := ih none
    cases hnear : s.near with
    | false => exact ⟨_, _, .findNone hnear h⟩
    | true => exact ⟨_, _, .find hnear none h⟩
  | holds key next ih =>
    obtain ⟨log, r, h⟩ := ih false
    exact ⟨_, _, .holds false h⟩
  | put key content ttl next ih =>
    obtain ⟨log, r, h⟩ := ih
    cases hnear : s.near with
    | false => exact ⟨_, _, .putNone hnear h⟩
    | true => exact ⟨_, _, .put hnear h⟩
  | drop key next ih =>
    obtain ⟨log, r, h⟩ := ih
    exact ⟨_, _, .drop h⟩
  | call request next ih =>
    cases hfar : s.far with
    | false =>
      obtain ⟨log, r, h⟩ := ih (.error .missing)
      exact ⟨_, _, .callNone hfar h⟩
    | true => exact ⟨_, _, .callCrashed hfar⟩
  | tally found next ih =>
    obtain ⟨log, r, h⟩ := ih
    exact ⟨_, _, .tally h⟩
  | count event next ih =>
    obtain ⟨log, r, h⟩ := ih
    exact ⟨_, _, .count h⟩
  | startLoad next ih =>
    obtain ⟨log, r, h⟩ := ih
    exact ⟨_, _, .startLoad h⟩
  | awaitLoad next => exact ⟨_, _, .awaits next⟩
  | join key next => exact ⟨_, _, .waits key next⟩
  | land outcome next ih =>
    obtain ⟨log, r, h⟩ := ih
    exact ⟨_, _, .land h⟩

end Trace

end Prog

/-- A caller whose turn it is has a seat. -/
lemma Flight.Group.seat_of_start {τ : Type} {g : Flight.Group τ} {i : Flight.Caller}
    (h : g.turn i = .start) : ∃ place, g.seat? i = some place := by
  cases hseat : g.seat? i with
  | some place => exact ⟨place, rfl⟩
  | none =>
    rw [turn_outside hseat] at h
    cases h

namespace Prog

variable {α β σ : Type} [FarStore σ] {s : Setup} {visit : Visit} {p rest : Prog α}
  {c c' : Cache σ} {log : List Contact} {r : Progress α}

namespace Trace

/-- **A step that goes on** is the beginning of a trace. -/
theorem of_goes (hs : c.setup = s) (h : p.step visit c = (.goes rest, c'))
    (h' : Trace s rest log r) : Trace s p ((p.contact visit c).toList ++ log) r := by
  cases p with
  | done a => cases h
  | find key next =>
    cases hnear : c.near with
    | none =>
      simp only [step, hnear] at h
      cases h
      simp only [contact, hnear]
      exact .findNone (Cache.near_eq_false hs hnear) h'
    | some t =>
      simp only [step, hnear] at h
      cases h
      simp only [contact, hnear]
      exact .find (Cache.near_eq_true hs hnear) _ h'
  | holds key next => cases h; exact .holds _ h'
  | put key content ttl next =>
    cases hnear : c.near with
    | none =>
      simp only [step, hnear] at h
      cases h
      simp only [contact, hnear]
      exact .putNone (Cache.near_eq_false hs hnear) h'
    | some t =>
      cases hput : t.put visit.now key content ttl <;> simp only [step, hnear, hput] at h <;>
        cases h
      simp only [contact, hnear, hput, Option.map_some]
      exact .put (Cache.near_eq_true hs hnear) h'
  | drop key next => cases h; exact .drop h'
  | call request next =>
    cases hfar : c.far with
    | none =>
      simp only [step, hfar] at h
      cases h
      simp only [contact, hfar]
      exact .callNone (Cache.far_eq_false hs hfar) h'
    | some far =>
      simp only [step, hfar] at h
      have hthere := Cache.far_eq_true hs hfar
      rcases hanswer : FarStore.answer far visit.now request with ⟨_ | _ | _, far'⟩ <;>
        simp only [hanswer] at h <;> cases h <;>
        simp only [contact, hfar, hanswer, Option.map_some]
      · exact .reply hthere _ h'
      · exact .failure hthere _ h'
  | tally found next => cases h; exact .tally h'
  | count event next => cases h; exact .count h'
  | startLoad next => cases h; exact .startLoad h'
  | awaitLoad next =>
    cases hloaded : visit.loaded <;> simp only [step, hloaded] at h <;> cases h
    simp only [contact, hloaded]
    exact .given _ h'
  | join key next =>
    simp only [step] at h
    cases hturn : (c.flights.join visit.caller key).turn visit.caller <;>
      simp only [hturn] at h <;> cases h
    · obtain ⟨place, hplace⟩ := Flight.Group.seat_of_start hturn
      simp only [contact, hturn, hplace]
      exact .lead place h'
    · simp only [contact, hturn]
      exact .collect _ h'
  | land outcome next => cases h; exact .land h'

/-- **A step that stops** is a trace. -/
theorem of_stops (hs : c.setup = s) (h : p.step visit c = (.stops r, c')) :
    Trace s p (p.contact visit c).toList r := by
  cases p with
  | done a => cases h; exact .done a
  | find key next => cases hnear : c.near <;> simp only [step, hnear] at h <;> cases h
  | put key content ttl next =>
    cases hnear : c.near with
    | none => simp only [step, hnear] at h; cases h
    | some t =>
      cases hput : t.put visit.now key content ttl <;> simp only [step, hnear, hput] at h <;>
        cases h
      simp only [contact, hnear, hput, Option.map_some]
      exact .putCrashed (Cache.near_eq_true hs hnear)
  | call request next =>
    cases hfar : c.far with
    | none => simp only [step, hfar] at h; cases h
    | some far =>
      simp only [step, hfar] at h
      rcases hanswer : FarStore.answer far visit.now request with ⟨_ | _ | _, far'⟩ <;>
        simp only [hanswer] at h <;> cases h
      simp only [contact, hfar, hanswer, Option.map_some]
      exact .callCrashed (Cache.far_eq_true hs hfar)
  | awaitLoad next =>
    cases hloaded : visit.loaded <;> simp only [step, hloaded] at h <;> cases h
    simp only [contact, hloaded]
    exact .awaits next
  | join key next =>
    simp only [step] at h
    cases hturn : (c.flights.join visit.caller key).turn visit.caller <;>
      simp only [hturn] at h <;> cases h <;> simp only [contact, hturn] <;> exact .waits key next
  | _ => cases h

end Trace

/-- **A run** is a trace. -/
theorem trace_contacts (visit : Visit) (p : Prog α) (c : Cache σ) :
    Trace c.setup p (p.contacts visit c) (p.run visit c).1 := by
  induction p using step_induction (σ := σ) generalizing c with
  | h p ih =>
    rw [contacts_eq_step, run_eq_step]
    rcases hstep : p.step visit c with ⟨how | rest, c'⟩
    · exact List.append_nil _ ▸ .of_stops rfl hstep
    · have hsetup : c'.setup = c.setup := by
        rw [← setup_step visit p c, hstep]
      exact .of_goes rfl hstep (hsetup ▸ ih visit c rest c' hstep c')

/-! ## Programs among others -/

/-- A program takes one step after the other, also after it had to wait, on caches that are set up
as `s` says. Between two steps others may do anything to the cache. -/
inductive Proceeds (σ : Type) [FarStore σ] {α : Type} (s : Setup) :
    Prog α → List Contact → Progress α → Prop where
  | stops {visit : Visit} {p : Prog α} {c c' : Cache σ} {r : Progress α} (setup : c.setup = s)
      (step : p.step visit c = (.stops r, c')) : Proceeds σ s p (p.contact visit c).toList r
  | goes {visit : Visit} {p rest : Prog α} {c c' : Cache σ} {log : List Contact} {r : Progress α}
      (setup : c.setup = s) (step : p.step visit c = (.goes rest, c'))
      (next : Proceeds σ s rest log r) : Proceeds σ s p ((p.contact visit c).toList ++ log) r
  | resumes {visit : Visit} {p rest : Prog α} {c c' : Cache σ} {log : List Contact}
      {r : Progress α} (setup : c.setup = s)
      (step : p.step visit c = (.stops (.blocked rest), c')) (next : Proceeds σ s rest log r) :
      Proceeds σ s p ((p.contact visit c).toList ++ log) r

/-- **A program among others** goes through a trace. -/
theorem Proceeds.trace (h : Proceeds σ s p log r) : Trace s p log r := by
  induction h with
  | stops setup step => exact .of_stops setup step
  | goes setup step _ ih => exact .of_goes setup step ih
  | resumes setup step _ ih => exact (Trace.of_stops setup step).resume ih

/-- A run on one cache is a program among others that do nothing. -/
lemma proceeds_run (visit : Visit) (p : Prog α) (c : Cache σ) :
    Proceeds σ c.setup p (p.contacts visit c) (p.run visit c).1 := by
  induction p using step_induction (σ := σ) generalizing c with
  | h p ih =>
    rw [contacts_eq_step, run_eq_step]
    rcases hstep : p.step visit c with ⟨how | rest, c'⟩
    · exact (List.append_nil _).symm ▸ .stops rfl hstep
    · have hsetup : c'.setup = c.setup := by
        rw [← setup_step visit p c, hstep]
      exact .goes rfl hstep (hsetup ▸ ih visit c rest c' hstep c')

end Prog

end LayeredCache
