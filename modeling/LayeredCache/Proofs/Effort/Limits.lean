import LayeredCache.Proofs.Cache.Courses
import LayeredCache.Proofs.Cache.Seeking
import Mathlib.Algebra.Group.Pi.Basic

/-!
# How much an operation does at most

Whatever the tiers answer, an operation looks a key up at most twice, drops an unreadable entry at
most once, computes a value at most once and writes it at most once. The numbers are those of its
traces, so that they hold on every cache and whatever other callers do in between.

## Main definitions

* `Progress.Queued`, `Contact.Fatal` — where a program has to wait for another caller, and where it
  crashes.
* `Effort.Kind`, `Effort.spent` — kinds of contacts, and how many of them there are.
* `Effort.Within` — a program stays within limits and waits for no other caller.

## Main results

* `Prog.queued_of_blocked`, `Prog.Trace.of_crashed` — why a program that runs does not end.
* `Effort.lookup_within`, `Effort.heal_within`, `Effort.make_within` — the limits of the parts of an
  operation.
* `Effort.take_within`, `Effort.flight_within` — those of reading or computing, alone and inside a
  shared run.
-/

set_option autoImplicit false

namespace LayeredCache

open Prog

/-! ## Where a program stops -/

section Stops

variable {α β σ : Type} [FarStore σ] {s : Setup} {p rest : Prog α} {log : List Contact}
  {visit : Visit} {c c' : Cache σ}

/-- A caller waits for another caller's run. -/
def Progress.Queued : Progress α → Prop
  | .blocked (.join _ _) => True
  | _ => False

/-- A program that has to wait does so for its loader or for another caller's run. -/
lemma Prog.Trace.of_blocked (h : Trace s p log (.blocked rest)) :
    (∃ next, rest = .awaitLoad next) ∨ ∃ key next, rest = .join key next := by
  generalize hb : (Progress.blocked rest : Progress α) = r at h
  induction h with
  | awaits next =>
    cases hb
    exact .inl ⟨next, rfl⟩
  | waits key next =>
    cases hb
    exact .inr ⟨key, next, rfl⟩
  | done | putCrashed | callCrashed => cases hb
  | find _ _ _ ih | findNone _ _ ih | holds _ _ ih | put _ _ ih | putNone _ _ ih | drop _ ih
    | reply _ _ _ ih | failure _ _ _ ih | callNone _ _ ih | tally _ ih | count _ ih
    | startLoad _ ih | given _ _ ih | collect _ _ ih | lead _ _ ih | land _ ih => exact ih hb

/-- What comes after a program does not change for what it waits. -/
lemma Prog.Trace.queued_bind (h : Trace s p log (.blocked rest)) (f : α → Prog β) :
    (Progress.blocked (rest.bind f)).Queued ↔ (Progress.blocked rest).Queued := by
  rcases h.of_blocked with ⟨next, rfl⟩ | ⟨key, next, rfl⟩ <;> exact Iff.rfl

/-- A contact after which the caller has crashed: the clock could not represent a deadline. -/
def Contact.Fatal : Contact → Prop
  | .put _ _ _ kept => kept = false
  | .ask _ .crash => True
  | _ => False

/-- A program that crashes does so at its last contact. -/
lemma Prog.Trace.of_crashed (h : Trace s p log .crashed) : ∃ x ∈ log, x.Fatal := by
  generalize hb : (Progress.crashed : Progress α) = r at h
  induction h with
  | done | awaits | waits => cases hb
  | putCrashed => exact ⟨_, List.mem_singleton_self _, rfl⟩
  | callCrashed => exact ⟨_, List.mem_singleton_self _, trivial⟩
  | findNone _ _ ih | putNone _ _ ih | callNone _ _ ih => exact ih hb
  | find _ _ _ ih | holds _ _ ih | put _ _ ih | drop _ ih | reply _ _ _ ih | failure _ _ _ ih
    | tally _ ih | count _ ih | startLoad _ ih | given _ _ ih | collect _ _ ih | lead _ _ ih
    | land _ ih =>
    obtain ⟨x, hx, hfatal⟩ := ih hb
    exact ⟨x, List.mem_cons_of_mem _ hx, hfatal⟩

/-- A caller whose loader has given its answer waits for another caller's run only. -/
lemma Prog.queued_of_blocked {answer : Except LoadFailure Value}
    (hloaded : visit.loaded = some answer) (h : (p.run visit c).1 = .blocked rest) :
    (Progress.blocked rest).Queued := by
  induction p using step_induction (σ := σ) generalizing c with
  | h p ih =>
    rw [run_eq_step] at h
    rcases hstep : p.step visit c with ⟨how | rest', c'⟩
    · rw [hstep, Step.run] at h
      obtain rfl : how = .blocked rest := h
      cases p with
      | done a => cases hstep
      | find key next => cases hnear : c.near <;> simp only [step, hnear] at hstep <;> cases hstep
      | put key content ttl next =>
        cases hnear : c.near with
        | none => simp only [step, hnear] at hstep; cases hstep
        | some t =>
          cases hput : t.put visit.now key content ttl <;>
            simp only [step, hnear, hput] at hstep <;> cases hstep
      | call request next =>
        cases hfar : c.far with
        | none => simp only [step, hfar] at hstep; cases hstep
        | some far =>
          simp only [step, hfar] at hstep
          rcases hanswer : FarStore.answer far visit.now request with ⟨_ | _ | _, far'⟩ <;>
            simp only [hanswer] at hstep <;> cases hstep
      | awaitLoad next => simp only [step, hloaded] at hstep; cases hstep
      | join key next =>
        simp only [step] at hstep
        cases hturn : (c.flights.join visit.caller key).turn visit.caller <;>
          simp only [hturn] at hstep <;> cases hstep <;> trivial
      | _ => cases hstep
    · rw [hstep, Step.run] at h
      exact ih visit c rest' c' hstep h

end Stops

namespace Effort

/-! ## Kinds of contacts -/

/-- The kinds of contacts that are limited. -/
inductive Kind where
  /-- A look-up in the far tier. -/
  | get
  /-- A deletion in the far tier. -/
  | delete
  /-- A write into the far tier. -/
  | write
  /-- A run of the loader. -/
  | load
  /-- An entry that could not be read is dropped. -/
  | heal
  /-- A dealing with the shared runs. -/
  | share
  /-- A contact of any kind. -/
  | any
  deriving DecidableEq

/-- Whether a contact is of a kind. -/
def Kind.covers : Kind → Contact → Bool
  | .get, .ask (.get _) _ => true
  | .delete, .ask (.delete _) _ => true
  | .write, .ask (.write _ _ _ _) _ => true
  | .load, .startLoad => true
  | .heal, .count .heal => true
  | .share, .collect _ => true
  | .share, .lead _ => true
  | .share, .land _ => true
  | .any, _ => true
  | _, _ => false

-- the equations of the kinds are made here, once, and not by each proof that asks first
attribute [local simp] Kind.covers

/-- How many contacts of a kind there are. -/
def spent (k : Kind) (log : List Contact) : Nat := log.countP k.covers

@[simp] lemma spent_nil (k : Kind) : spent k [] = 0 := rfl

@[simp] lemma spent_cons (k : Kind) (x : Contact) (log : List Contact) :
    spent k (x :: log) = spent k log + if k.covers x then 1 else 0 := List.countP_cons

@[simp] lemma spent_append (k : Kind) (log log' : List Contact) :
    spent k (log ++ log') = spent k log + spent k log' := List.countP_append

/-- The first contacts are no more than all of them. -/
lemma spent_le_of_initial {log log' : List Contact} (h : log <+: log') (k : Kind) :
    spent k log ≤ spent k log' :=
  h.sublist.countP_le

/-! ## Limits -/

/-- One contact that is neither with the far tier nor with the loader or the shared runs. -/
def aside : Kind → Nat
  | .any => 1
  | _ => 0

/-- A look-up in the far tier. -/
def fetching : Kind → Nat
  | .get => 1
  | .any => 4
  | _ => 0

/-- A look-up. -/
def looking : Kind → Nat
  | .get => 1
  | .any => 6
  | _ => 0

/-- A deletion. -/
def deleting : Kind → Nat
  | .delete => 1
  | .any => 2
  | _ => 0

/-- Dropping an entry. -/
def healing : Kind → Nat
  | .delete => 1
  | .heal => 1
  | .any => 3
  | _ => 0

/-- Writing a value. -/
def writing : Kind → Nat
  | .write => 1
  | .any => 3
  | _ => 0

/-- Computing a value. -/
def producing : Kind → Nat
  | .load => 1
  | .any => 3
  | _ => 0

/-- A program stays within limits, whatever its surroundings answer, and waits for nobody. -/
def Within {α : Type} (s : Setup) (limit : Kind → Nat) (p : Prog α) : Prop :=
  ∀ log r, Trace s p log r → (∀ k, spent k log ≤ limit k) ∧ ¬ r.Queued

section Programs

variable {α β ρ : Type} {s : Setup} {limit limit' : Kind → Nat} {p : Prog α} {f : α → Prog β}
  {ty : Ty} {key mode : String} {o : CallOptions} {item : Item ρ} {log : List Contact}

/-- A program that is done does nothing. -/
lemma Within.done (a : α) : Within s limit (.done a) := by
  intro log r h
  cases h
  exact ⟨fun k => Nat.zero_le _, id⟩

/-- Limits may be wider. -/
lemma Within.mono (h : Within s limit p) (hle : limit ≤ limit') : Within s limit' p :=
  fun log r htrace => ⟨fun k => ((h log r htrace).1 k).trans (hle k), (h log r htrace).2⟩

/-- **Programs in a row** stay within the sum of their limits. -/
theorem Within.bind (h : Within s limit p) (hf : ∀ a, Within s limit' (f a)) :
    Within s (limit + limit') (p.bind f) := by
  intro log r htrace
  cases Trace.of_bind htrace with
  | ends first second =>
    obtain ⟨hfirst, -⟩ := h _ _ first
    obtain ⟨hsecond, hr⟩ := hf _ _ _ second
    refine ⟨fun k => ?_, hr⟩
    rw [spent_append]
    exact Nat.add_le_add (hfirst k) (hsecond k)
  | waits first =>
    obtain ⟨hfirst, hr⟩ := h _ _ first
    exact ⟨fun k => (hfirst k).trans (Nat.le_add_right _ _), fun hq =>
      hr ((first.queued_bind f).mp hq)⟩
  | crashes first =>
    obtain ⟨hfirst, -⟩ := h _ _ first
    exact ⟨fun k => (hfirst k).trans (Nat.le_add_right _ _), id⟩

/-- What is done with the result of a program costs nothing. -/
lemma Within.map (h : Within s limit p) (g : α → β) :
    Within s limit (p.bind fun a => .done (g a)) := by
  have hdone : ∀ a, Within s 0 (.done (g a)) := fun a => .done _
  exact (h.bind hdone).mono (add_zero limit).le

/-! ## The parts of an operation -/

lemma spent_laying_le (k : Kind) (content : Content) :
    spent k (s.laying key content o) ≤ aside k := by
  unfold Setup.laying
  split <;> cases k <;> simp [Kind.covers, aside]

lemma spent_dropping_le (k : Kind) : spent k (s.dropping key) ≤ aside k := by
  unfold Setup.dropping
  split <;> cases k <;> simp [Kind.covers, aside]

lemma spent_sweeping_le (k : Kind) (skip : Skip) : spent k (s.sweeping key skip) ≤ aside k := by
  unfold Setup.sweeping
  split <;> cases k <;> simp [Kind.covers, aside]

lemma spent_settling_le (k : Kind) (applied : Bool) :
    spent k (s.settling key o applied) ≤ aside k := by
  unfold Setup.settling
  split
  · exact Nat.zero_le _
  · exact spent_dropping_le k

lemma spent_seeking_le (k : Kind) : spent k (s.seeking key o) ≤ 2 * aside k := by
  unfold Setup.seeking
  split <;> cases k <;> simp [Kind.covers, aside]

/-- What a look-up in the far tier goes through stays within its limits. -/
lemma spent_le_of_fetch {r : Progress Outcome} (h : s.FetchTrace key o log r) (k : Kind) :
    spent k log ≤ fetching k := by
  cases h with
  | unused => exact Nat.zero_le _
  | failed => cases k <;> simp [Setup.missing, Kind.covers, fetching]
  | crashed => cases k <;> simp [Kind.covers, fetching]
  | copied _ data =>
    have hlaid : spent k (s.laying key (.stored data) o) ≤ aside k := spent_laying_le k _
    rw [spent_append]
    cases k <;> simp [Setup.fetching, Kind.covers, fetching, aside] at hlaid ⊢ <;> omega
  | copyCrashed => cases k <;> simp [Setup.fetching, Kind.covers, fetching]

/-- **A look-up in the far tier** asks it once. -/
theorem fetch_within : Within s fetching (s.fetch key o) := by
  intro log r h
  have htrace := Setup.fetch_trace h
  refine ⟨spent_le_of_fetch htrace, ?_⟩
  cases htrace <;> exact id

/-- **A look-up** asks the far tier once at most. -/
theorem lookup_within : Within s looking (s.lookup ty key o) := by
  intro log r h
  -- the near tier is asked first, and then the far tier
  have hboth : ∀ {log : List Contact} {r : Progress Outcome}, s.FetchTrace key o log r →
      ∀ k, spent k (s.seeking key o ++ log) ≤ looking k := by
    intro log r hfetch k
    have hseek : spent k (s.seeking key o) ≤ 2 * aside k := spent_seeking_le k
    have hfetched := spent_le_of_fetch hfetch k
    rw [spent_append]
    cases k <;> simp [aside, fetching, looking] at hseek hfetched ⊢ <;> omega
  cases Setup.lookup_trace h with
  | skipped => exact ⟨fun k => Nat.zero_le _, id⟩
  | noTiers => exact ⟨fun k => Nat.zero_le _, id⟩
  | near => exact ⟨fun k => by cases k <;> simp [Kind.covers, looking], id⟩
  | unfound fetch => exact ⟨hboth fetch, id⟩
  | far fetch => exact ⟨hboth fetch, id⟩
  | crashed fetch => exact ⟨hboth fetch, id⟩

/-- **A deletion** asks the far tier once at most. -/
theorem deleteFrom_within {skip : Skip} : Within s deleting (s.deleteFrom key skip) := by
  intro log r h
  have hswept : ∀ k, spent k (s.sweeping key skip) ≤ aside k := fun k => spent_sweeping_le k skip
  cases Setup.delete_trace h with
  | near =>
    refine ⟨fun k => (hswept k).trans ?_, id⟩
    cases k <;> simp [aside, deleting]
  | far uses answer =>
    refine ⟨fun k => ?_, by cases answer <;> exact id⟩
    have := hswept k
    rw [spent_append]
    cases k <;> simp [Kind.covers, aside, deleting] at this ⊢ <;> omega

/-- **Dropping an entry** counts that once and deletes the key. -/
theorem heal_within : Within s healing (s.heal key o) := by
  intro log r h
  cases h with
  | count rest =>
    obtain ⟨hlimit, hr⟩ := deleteFrom_within _ _ rest
    refine ⟨fun k => ?_, hr⟩
    have := hlimit k
    cases k <;> simp [Kind.covers, deleting, healing] at this ⊢ <;> omega

/-- **A write** asks the far tier once at most. -/
theorem store_within {v : Value} {data : Bytes} : Within s writing (s.store ty key v data o) := by
  intro log r h
  have hlaid : ∀ k, spent k (s.laying key (Setup.contentOf ty v data o) o) ≤ aside k :=
    fun k => spent_laying_le k _
  cases Setup.store_trace h with
  | skipped => exact ⟨fun k => Nat.zero_le _, id⟩
  | noTiers => exact ⟨fun k => Nat.zero_le _, id⟩
  | putCrashed => exact ⟨fun k => by cases k <;> simp [Kind.covers, writing], id⟩
  | near =>
    refine ⟨fun k => (hlaid k).trans ?_, id⟩
    cases k <;> simp [aside, writing]
  | applied _ applied =>
    refine ⟨fun k => ?_, id⟩
    have := hlaid k
    have hsettled : spent k (s.settling key o applied) ≤ aside k := spent_settling_le k applied
    rw [spent_append, spent_cons]
    cases k <;> simp [Kind.covers, aside, writing] at this hsettled ⊢ <;> omega
  | failed =>
    refine ⟨fun k => ?_, id⟩
    have := hlaid k
    rw [spent_append]
    cases k <;> simp [Kind.covers, aside, writing] at this ⊢ <;> omega
  | crashed =>
    refine ⟨fun k => ?_, id⟩
    have := hlaid k
    rw [spent_append]
    cases k <;> simp [Kind.covers, aside, writing] at this ⊢ <;> omega

/-- **Computing a value** runs the loader once at most. -/
theorem produce_within : Within s producing (Setup.produce item mode) := by
  intro log r h
  cases Setup.produce_trace h with
  | plain => exact ⟨fun k => by cases k <;> simp [Kind.covers, producing], id⟩
  | given => exact ⟨fun k => by cases k <;> simp [Kind.covers, producing], id⟩
  | awaits => exact ⟨fun k => by cases k <;> simp [Kind.covers, producing], id⟩

/-! ## Whole operations -/

/-- **Setting a value** writes it once at most. -/
theorem set_within {v : Value} : Within s writing (s.set ty key v o) := by
  unfold Setup.set
  split
  · exact .done _
  · exact store_within

/-- **Asking whether a key is there** asks the far tier once at most. -/
theorem has_within : Within s looking (s.has key o) := by
  unfold Setup.has
  split
  · exact .done _
  · have hfetch : ∀ next : Outcome → Prog Bool, (∀ outcome, ∃ b, next outcome = .done b) →
        Within s fetching ((s.fetch key o).bind next) := by
      intro next hnext
      refine Within.mono (fetch_within.bind fun outcome => ?_) (add_zero fetching).le
      obtain ⟨b, hb⟩ := hnext outcome
      rw [hb]
      exact .done _
    cases s.usesNear o with
    | false =>
      exact Within.mono (hfetch _ fun outcome => by cases outcome <;> exact ⟨_, rfl⟩)
        fun k => by cases k <;> simp [fetching, looking]
    | true =>
      intro log r h
      cases h with
      | holds served rest =>
        cases served with
        | true =>
          cases rest
          exact ⟨fun k => by cases k <;> simp [Kind.covers, looking], id⟩
        | false =>
          obtain ⟨hlimit, hr⟩ :=
            hfetch _ (fun outcome => by cases outcome <;> exact ⟨_, rfl⟩) _ _ rest
          refine ⟨fun k => ?_, hr⟩
          have := hlimit k
          cases k <;> simp [Kind.covers, fetching, looking] at this ⊢ <;> omega

/-- **Deleting a key** asks the far tier once at most. -/
theorem delete_within : Within s deleting (s.delete key) := by
  unfold Setup.delete
  split
  · exact deleteFrom_within
  · exact .done _

/-- **Making a value** runs the loader once and writes once at most. -/
theorem make_within : Within s (producing + writing) (s.make ty item mode) := by
  refine produce_within.bind fun produced => ?_
  cases produced with
  | error f => exact .done _
  | ok v =>
    simp only [Setup.keep]
    cases s.envelope.encode ty v with
    | error f => exact .done _
    | ok data => exact store_within.map _

/-- **Looking for a value** looks it up twice and drops an entry once at most. -/
theorem seek_within : Within s (looking + (healing + looking)) (s.seek ty item) := by
  refine lookup_within.bind fun reading => ?_
  cases reading with
  | ok v => exact .done _
  | error f =>
    simp only [Setup.seekAfter]
    split
    · exact .done _
    · split
      · refine heal_within.bind fun healed => ?_
        cases healed with
        | error g => exact .done _
        | ok _ => exact lookup_within.map _
      · exact .done _

/-- **Looking for a value inside a shared run** looks it up once and drops an entry once at most. -/
theorem seekStored_within : Within s (looking + healing) (s.seekStored ty item) := by
  refine lookup_within.bind fun reading => ?_
  cases reading with
  | ok v => exact .done _
  | error f =>
    simp only [Setup.storedAfter]
    split
    · exact .done _
    · split
      · exact heal_within.map _
      · exact .done _

/-- What reading or computing does at most. -/
def taking : Kind → Nat := looking + (healing + looking) + (producing + writing)

/-- What the body of a shared run does at most. -/
def flying : Kind → Nat := looking + healing + (producing + writing)

/-- **Reading or computing** looks up twice, drops an entry once, runs the loader once and writes
once at most. -/
theorem take_within : Within s taking (s.take ty item) := by
  rw [Setup.take_eq]
  refine seek_within.bind fun sought => ?_
  cases sought with
  | some r => exact .done _
  | none =>
    rw [Setup.orCompute, Setup.compute_eq]
    exact make_within.map _

/-- **The body of a shared run** looks up once, drops an entry once, runs the loader once and writes
once at most. -/
theorem flight_within : Within s flying (s.flight ty item) := by
  rw [Setup.flight_eq_seek]
  refine seekStored_within.bind fun sought => ?_
  cases sought with
  | some outcome => exact .done _
  | none =>
    rw [Setup.orComputeStored, Setup.computeStored_eq_make]
    exact make_within.map _

end Programs

end Effort

end LayeredCache
