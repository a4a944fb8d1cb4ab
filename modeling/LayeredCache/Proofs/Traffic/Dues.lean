import LayeredCache.Proofs.Cache.Throughout
import LayeredCache.Proofs.Serial.FreshReads
import LayeredCache.Proofs.Traffic.Ledger

/-!
# What an operation has to count

A look-up in a tier has to be counted, and so has a deletion in the far tier that drops an
unreadable entry. Whatever the tiers answer, a program counts each of them once before it waits or
ends. A call that goes on to compute a value counts that once as well.

## Main definitions

* `Traffic.Account` — what has to be counted, and by which contacts this is done.
* `Traffic.Settles` — a program counts all that it has to count.
* `Traffic.search`, `Traffic.modeOf` — the first half of a call, and the way in which it computes.

## Main results

* `Traffic.call_settles` — calls count their look-ups and deletions.
* `Traffic.loads_of_trace` — calls count that they compute a value.
-/

set_option autoImplicit false

namespace LayeredCache

open Prog (Trace)

namespace Traffic

/-! ## Accounts -/

/-- What has to be counted. -/
inductive Account where
  /-- A look-up in the near tier that finds something, readable or not. -/
  | nearHit
  /-- A look-up in the near tier that finds nothing. -/
  | nearMiss
  /-- A look-up in the far tier that is answered, for the counters and for the tally. -/
  | farHit
  | tallyHit
  /-- A look-up in the far tier that fails, for the counters and for the tally. -/
  | farMiss
  | tallyMiss
  /-- A deletion in the far tier. -/
  | removal
  /-- That a value is computed, which no look-up and no deletion calls for. -/
  | computing (mode : String)

/-- Whether a contact is a look-up in the near tier that found something. -/
def served : Contact → Bool
  | .find _ (some _) => true
  | _ => false

/-- Whether a contact is a look-up in the near tier that found nothing. -/
def unserved : Contact → Bool
  | .find _ none => true
  | _ => false

/-- Whether a contact is a look-up in the far tier that was answered. -/
def answered : Contact → Bool
  | .ask (.get _) (.reply _) => true
  | _ => false

/-- Whether a contact is a look-up in the far tier that failed. -/
def unanswered : Contact → Bool
  | .ask (.get _) (.failure _) => true
  | _ => false

/-- Whether a contact is a deletion in the far tier. -/
def removes : Contact → Bool
  | .ask (.delete _) _ => true
  | _ => false

/-- The contacts that have to be counted. -/
def Account.owes : Account → Contact → Bool
  | .nearHit => served
  | .nearMiss => unserved
  | .farHit => answered
  | .tallyHit => answered
  | .farMiss => unanswered
  | .tallyMiss => unanswered
  | .removal => removes
  | .computing _ => fun _ => false

/-- The contacts by which this is done. -/
def Account.pays : Account → Contact → Bool
  | .nearHit => Contact.counts (.hit nearLabel)
  | .nearMiss => Contact.counts (.miss nearLabel)
  | .farHit => Contact.counts (.hit farLabel)
  | .tallyHit => Contact.tallies true
  | .farMiss => Contact.counts (.miss farLabel)
  | .tallyMiss => Contact.tallies false
  | .removal => Contact.counts .heal
  | .computing mode => Contact.counts (.load mode)

/-- All that has to be counted is counted. -/
def Balanced (a : Account) (log : List Contact) : Prop := log.countP a.owes = log.countP a.pays

/-- The accounts that an operation settles: dropping an entry is a deletion only if the far tier is
used. -/
def Reaching (s : Setup) (o : CallOptions) (a : Account) : Prop := a = .removal → s.usesFar o = true

/-- Whether an account is about look-ups or deletions. -/
def Account.isDue : Account → Bool
  | .computing _ => false
  | _ => true

/-- A program counts all that it has to count, before it waits or ends. -/
def Settles {α : Type} (s : Setup) (A : Account → Prop) (p : Prog α) : Prop :=
  ∀ log r, Trace s p log r → ∀ a, A a → Balanced a log

section Programs

variable {α β ρ : Type} {s : Setup} {A B : Account → Prop} {p : Prog α} {f : α → Prog β}
  {a : Account}
  {ty : Ty} {key mode : String} {o : CallOptions} {item : Item ρ} {log log' : List Contact}

lemma Balanced.nil : Balanced a [] := rfl

lemma Balanced.append (h : Balanced a log) (h' : Balanced a log') : Balanced a (log ++ log') := by
  rw [Balanced, List.countP_append, List.countP_append, h, h']

/-- Contacts around others. -/
lemma Balanced.around {x y : Contact} (h : Balanced a [x, y]) (h' : Balanced a log) :
    Balanced a (x :: (log ++ [y])) := by
  unfold Balanced at h h' ⊢
  simp only [List.countP_cons, List.countP_append, List.countP_nil] at h ⊢
  omega

/-- That all is counted holds of nothing and of two lists in a row. -/
lemma additive_balanced : Contact.Additive fun log => ∀ a, A a → Balanced a log :=
  ⟨fun _ _ => .nil, fun h h' a ha => (h a ha).append (h' a ha)⟩

/-- A program that is done has nothing to count. -/
lemma Settles.done (x : α) : Settles s A (.done x) := Prog.Throughout.done additive_balanced x

/-- A program settles fewer accounts too. -/
lemma Settles.mono (h : Settles s A p) (hle : ∀ a, B a → A a) : Settles s B p :=
  fun log r htrace a ha => h log r htrace a (hle a ha)

/-- **Programs in a row** count all that they have to count. -/
theorem Settles.bind (h : Settles s A p) (hf : ∀ x, Settles s A (f x)) :
    Settles s A (p.bind f) :=
  Prog.Throughout.bind additive_balanced h hf

/-- What is done with the result of a program has not to be counted. -/
lemma Settles.map (h : Settles s A p) (g : α → β) : Settles s A (p.bind fun x => .done (g x)) :=
  h.bind fun _ => .done _

/-! ## The parts of an operation -/

lemma balanced_laying (content : Content) : Balanced a (s.laying key content o) := by
  unfold Setup.laying
  split <;> cases a <;> rfl

lemma balanced_sweeping (skip : Skip) : Balanced a (s.sweeping key skip) := by
  unfold Setup.sweeping
  split <;> cases a <;> rfl

lemma balanced_settling (applied : Bool) : Balanced a (s.settling key o applied) := by
  unfold Setup.settling Setup.dropping
  split
  · rfl
  · split <;> cases a <;> rfl

lemma balanced_seeking : Balanced a (s.seeking key o) := by
  unfold Setup.seeking
  split <;> cases a <;> rfl

/-- What a look-up in the far tier goes through is counted. -/
lemma balanced_of_fetch {r : Progress Outcome} (h : s.FetchTrace key o log r) : Balanced a log := by
  cases h with
  | unused => exact .nil
  | failed => cases a <;> rfl
  | crashed => cases a <;> rfl
  | copied _ data =>
    have hfetched : Balanced a (Setup.fetching key data) := by cases a <;> rfl
    exact hfetched.append (balanced_laying _)
  | copyCrashed => cases a <;> rfl

/-- **A look-up** is counted in each tier that it asks. -/
theorem lookup_settles : Settles s (fun _ => True) (s.lookup ty key o) := by
  intro log r h a _
  cases Setup.lookup_trace h with
  | skipped => exact .nil
  | noTiers => exact .nil
  | near => cases a <;> rfl
  | unfound fetch => exact balanced_seeking.append (balanced_of_fetch fetch)
  | far fetch => exact balanced_seeking.append (balanced_of_fetch fetch)
  | crashed fetch => exact balanced_seeking.append (balanced_of_fetch fetch)

/-- **Dropping an entry** is counted, and is a deletion in the far tier if that is used. -/
theorem heal_settles : Settles s (Reaching s o) (s.heal key o) := by
  intro log r h a ha
  cases h with
  | count rest =>
    have huses : (s.far && !o.skip.far) = s.usesFar o := by
      rw [Setup.usesFar, (Setup.covers_eq o.skip).2.1]
    have hswept : Balanced a (s.sweeping key o.skip) := balanced_sweeping _
    cases Setup.delete_trace rest with
    | near unused =>
      have hcount : Balanced a [.count .heal] := by
        cases a with
        | removal =>
          rw [huses, ha rfl] at unused
          cases unused
        | _ => rfl
      exact hcount.append hswept
    | far uses answer =>
      have hends : Balanced a [.count .heal, .ask (.delete [key]) answer] := by cases a <;> rfl
      exact hends.around hswept

/-- **A write** has not to be counted. -/
theorem store_settles {v : Value} {data : Bytes} :
    Settles s (fun _ => True) (s.store ty key v data o) := by
  intro log r h a _
  have hlaid : Balanced a (s.laying key (Setup.contentOf ty v data o) o) := balanced_laying _
  have hasked : ∀ answer, Balanced a [.ask (.write o.condition key data o.lifetime) answer] := by
    intro answer
    cases a <;> rfl
  cases Setup.store_trace h with
  | skipped => exact .nil
  | noTiers => exact .nil
  | putCrashed => cases a <;> rfl
  | near => exact hlaid
  | applied _ applied => exact hlaid.append ((hasked _).append (balanced_settling applied))
  | failed => exact hlaid.append (hasked _)
  | crashed => exact hlaid.append (hasked _)

/-! ## Reading and computing -/

/-- Setting a value has not to be counted. -/
lemma set_settles {v : Value} : Settles s (fun _ => True) (s.set ty key v o) := by
  unfold Setup.set
  split
  · exact .done _
  · exact store_settles

/-- **Asking whether a key is there** is counted in the far tier. -/
lemma has_settles : Settles s (fun _ => True) (s.has key o) := by
  refine Setup.has_throughout (P := fun log => ∀ a, True → Balanced a log) additive_balanced
    (fun _ served a _ => ?_) fun log r h a _ => balanced_of_fetch (Setup.fetch_trace h)
  cases a <;> rfl

/-- **The parts of a search** are counted, and so are the dealings with the shared runs. -/
lemma searching_settles :
    s.Searching (fun log => ∀ a, Reaching s o a → Balanced a log) key o where
  additive := additive_balanced
  lookup _ := lookup_settles.mono fun _ _ => trivial
  heal := heal_settles
  collect _ a _ := by cases a <;> rfl
  lead _ a _ := by cases a <;> rfl
  land _ a _ := by cases a <;> rfl

/-- **Looking for a value** is counted, and computes nothing. -/
theorem seek_settles : Settles s (Reaching s item.options) (s.seek ty item) :=
  searching_settles.seek

/-- **Looking for a value, alone and then in a shared run,** is counted, and computes nothing. -/
theorem seekShared_settles : Settles s (Reaching s item.options) (s.seekShared ty item) :=
  searching_settles.seekShared

/-- Ending a shared run has not to be counted. -/
lemma land_settles {outcome : Outcome} (x : α) :
    Settles s A (.land outcome (.done x)) := by
  intro log r h a _
  cases h with
  | land rest =>
    cases rest
    cases a <;> rfl

/-- Writing what was computed has not to be counted. -/
lemma keep_settles (produced : Except Failure Value) :
    Settles s (fun _ => True) (s.keep ty item produced) := by
  cases produced with
  | error f => exact .done _
  | ok v =>
    simp only [Setup.keep]
    cases s.envelope.encode ty v with
    | error f => exact .done _
    | ok data => exact store_settles.map _

/-- A value is computed: this is counted at first, and the rest counts all that it has to count. -/
def Computes (mode : String) (log : List Contact) : Prop :=
  ∃ log', log = .count (.load mode) :: log' ∧ ∀ a, Balanced a log'

/-- What follows counts all that it has to count. -/
lemma Computes.append (h : Computes mode log) (h' : ∀ a, Balanced a log') :
    Computes mode (log ++ log') := by
  obtain ⟨rest, rfl, hrest⟩ := h
  exact ⟨_, rfl, fun a => (hrest a).append (h' a)⟩

/-- A program that computes a value, and then another one that does not. -/
lemma computes_bind {r : Progress β} (hp : ∀ log r, Trace s p log r → Computes mode log)
    (hf : ∀ x, Settles s (fun _ => True) (f x)) (h : Trace s (p.bind f) log r) :
    Computes mode log := by
  cases Trace.of_bind h with
  | ends first second => exact (hp _ _ first).append fun a => hf _ _ _ second a trivial
  | waits first => exact hp _ _ first
  | crashes first => exact hp _ _ first

/-- **Making a value** is counted once. -/
theorem make_computes {r : Progress (Except Failure (Value × Bytes))}
    (h : Trace s (s.make ty item mode) log r) : Computes mode log := by
  refine computes_bind (fun log r htrace => ?_) keep_settles h
  cases Setup.produce_trace htrace with
  | plain => exact ⟨_, rfl, fun a => .nil⟩
  | given => exact ⟨_, rfl, fun a => by cases a <;> rfl⟩
  | awaits => exact ⟨_, rfl, fun a => by cases a <;> rfl⟩

end Programs

/-! ## Calls -/

section Calls

open Serial (Call)

variable {ρ : Type} {s : Setup} {call : Call ρ} {mode : String} {log : List Contact}
  {r : Progress Unit} {a : Account}

/-- Whether a call skips the far tier. -/
def skipsFar : Call ρ → Bool
  | .set _ _ _ o | .get _ _ o | .has _ o => o.skip.far
  | .delete _ => false
  | .take _ item | .once _ item | .load _ item => item.options.skip.far

/-- Whether a call is a deletion. -/
def deletes : Call ρ → Bool
  | .delete _ => true
  | _ => false

/-- The way in which a call computes values, if it does. -/
def modeOf : Call ρ → Option String
  | .take _ _ => some "take"
  | .once _ _ => some "once"
  | .load _ item => some (if item.options.group then "once" else "take")
  | _ => none

/-- The first half of a call that reads or computes: it ends with nothing if the value has to be
made. -/
def search (s : Setup) : Call ρ → Prog (Option (Except Failure (Option Value)))
  | .take ty item => s.seek ty item
  | .once ty item => s.seekShared ty item
  | .load ty item => if item.options.group then s.seekShared ty item else s.seek ty item
  | _ => .done (some (.ok none))

/-- A call has gone on to compute a value in some way: its contacts begin with a whole search that
has found nothing. -/
def Produces (s : Setup) (call : Call ρ) (mode : String) (log : List Contact) : Prop :=
  modeOf call = some mode ∧
    ∃ first second, log = first ++ second ∧ Trace s (search s call) first (.finished none)

/-- The accounts that a call settles: it has to use the far tier for its deletions to be made. -/
def Settled (s : Setup) (call : Call ρ) (a : Account) : Prop :=
  a = .removal → s.far = true ∧ skipsFar call = false

/-- A call that uses the far tier. -/
lemma Settled.reaching {o : CallOptions} (h : Settled s call a) (ho : skipsFar call = o.skip.far) :
    Reaching s o a := by
  intro ha
  obtain ⟨hthere, hskip⟩ := h ha
  rw [Setup.usesFar, (Setup.covers_eq o.skip).2.1, hthere, ← ho, hskip]
  rfl

/-- **The search of a call** is counted, and computes nothing. -/
lemma search_settles (call : Call ρ) : Settles s (Settled s call) (search s call) := by
  cases call with
  | take ty item => exact seek_settles.mono fun a ha => ha.reaching rfl
  | once ty item => exact seekShared_settles.mono fun a ha => ha.reaching rfl
  | load ty item =>
    simp only [search]
    split
    · exact seekShared_settles.mono fun a ha => ha.reaching rfl
    · exact seek_settles.mono fun a ha => ha.reaching rfl
  | _ => exact .done _

/-- **A call that reads or computes** searches, and then computes a value if it has found none. -/
theorem program_of_mode (s : Setup) (hmode : modeOf call = some mode) :
    ∃ f, call.program s = (search s call).bind f ∧ (∀ x, f (some x) = .done ()) ∧
      ∀ log r, Trace s (f none) log r → Computes mode log := by
  have htake : ∀ ty (item : Item ρ), ∃ f,
      ((s.take ty item).bind fun _ => .done ()) = (s.seek ty item).bind f ∧
        (∀ x, f (some x) = .done ()) ∧
          ∀ log r, Trace s (f none) log r → Computes "take" log := by
    intro ty item
    refine ⟨fun x => (s.orCompute ty item x).bind fun _ => .done (), ?_, fun x => rfl,
      fun log r h => ?_⟩
    · rw [Setup.take_eq, Prog.bind_assoc]
    · change Trace s ((s.compute ty item).bind fun _ => .done ()) log r at h
      rw [Setup.compute_eq, Prog.bind_assoc] at h
      exact computes_bind (fun _ _ => make_computes) (fun x => .done _) h
  have honce : ∀ ty (item : Item ρ), ∃ f,
      ((s.once ty item).bind fun _ => .done ()) = (s.seekShared ty item).bind f ∧
        (∀ x, f (some x) = .done ()) ∧
          ∀ log r, Trace s (f none) log r → Computes "once" log := by
    intro ty item
    refine ⟨fun x => (s.orComputeShared ty item x).bind fun _ => .done (), ?_, fun x => rfl,
      fun log r h => ?_⟩
    · rw [Setup.once_eq_seek, Prog.bind_assoc]
    · change Trace s (((s.computeStored ty item).bind (Setup.landed ty)).bind fun _ => .done ())
        log r at h
      rw [Setup.computeStored_eq_make, Prog.bind_assoc, Prog.bind_assoc] at h
      exact computes_bind (fun _ _ => make_computes) (fun x => land_settles _) h
  cases call with
  | take ty item =>
    obtain rfl := Option.some.inj hmode
    exact htake ty item
  | once ty item =>
    obtain rfl := Option.some.inj hmode
    exact honce ty item
  | load ty item =>
    obtain rfl := Option.some.inj hmode
    simp only [search, Serial.Call.program, Setup.load]
    cases item.options.group with
    | true => exact honce ty item
    | false => exact htake ty item
  | _ => cases hmode

/-- A call that neither reads or computes nor deletes counts all that it has to count. -/
lemma plain_settles (hmode : modeOf call = none) (hdeletes : deletes call = false) :
    Settles s (fun _ => True) (call.program s) := by
  cases call with
  | set ty key v o => exact set_settles.map _
  | get ty key o => exact lookup_settles.map _
  | has key o => exact has_settles.map _
  | delete key => cases hdeletes
  | _ => cases hmode

/-- The deletions that a call makes without counting them. -/
def Account.uncounted (call : Call ρ) : Account → Nat
  | .removal => if deletes call then 1 else 0
  | _ => 0

/-- A deletion counts nothing, and makes one deletion in the far tier if there is one. -/
lemma delete_counts {key : String} {r : Progress (Except Failure Unit)}
    (h : Trace s (s.delete key) log r) (hfar : a = .removal → s.far = true) :
    log.countP a.owes = log.countP a.pays + a.uncounted (Call.delete (ρ := ρ) key) := by
  have hswept : Balanced a (s.sweeping key .none) := balanced_sweeping _
  have hlone : ∀ log : List Contact, a ≠ .removal → Balanced a log →
      log.countP a.owes = log.countP a.pays + a.uncounted (Call.delete (ρ := ρ) key) := by
    intro log ha hlog
    cases a <;> first | exact hlog | exact absurd rfl ha
  unfold Setup.delete at h
  split at h
  · cases Setup.delete_trace h with
    | near unused =>
      refine hlone _ (fun ha => ?_) hswept
      rw [hfar ha] at unused
      cases unused
    | far uses answer =>
      have hasked : [Contact.ask (.delete [key]) answer].countP a.owes =
          [Contact.ask (.delete [key]) answer].countP a.pays +
            a.uncounted (Call.delete (ρ := ρ) key) := by
        cases a <;> rfl
      rw [List.countP_append, List.countP_append, hswept, hasked, Nat.add_assoc]
  · rename_i htier
    cases h
    refine hlone _ (fun ha => ?_) .nil
    exact htier (by rw [Setup.hasTier, hfar ha, Bool.or_true])

/-- **Every call** counts its look-ups and, unless it is a deletion itself, the deletions by which
it drops an entry. -/
theorem call_settles (h : Trace s (call.program s) log r) (hdue : a.isDue = true)
    (hreach : Settled s call a) :
    log.countP a.owes = log.countP a.pays + a.uncounted call := by
  have hsettled : deletes call = false → Balanced a log →
      log.countP a.owes = log.countP a.pays + a.uncounted call := by
    intro hdeletes hlog
    cases a <;> simp [Account.uncounted, hdeletes] <;> exact hlog
  cases hmode : modeOf call with
  | some mode =>
    have hdeletes : deletes call = false := by
      cases call <;> first | rfl | cases hmode
    obtain ⟨f, hprogram, hdone, hcomputes⟩ := program_of_mode s hmode
    rw [hprogram] at h
    refine hsettled hdeletes ?_
    cases Trace.of_bind h with
    | @ends x _ _ _ first second =>
      have hsearched := search_settles call _ _ first a hreach
      cases x with
      | some x =>
        rw [hdone] at second
        cases second
        exact hsearched.append .nil
      | none =>
        obtain ⟨log', rfl, hlog'⟩ := hcomputes _ _ second
        have hcount : Balanced a [.count (.load mode)] := by
          cases a <;> first | rfl | cases hdue
        exact hsearched.append (hcount.append (hlog' a))
    | waits first => exact search_settles call _ _ first a hreach
    | crashes first => exact search_settles call _ _ first a hreach
  | none =>
    cases hdeletes : deletes call with
    | false => exact hsettled hdeletes (plain_settles hmode hdeletes _ _ h a trivial)
    | true =>
      cases call with
      | delete key =>
        cases Trace.of_bind h with
        | ends first second =>
          cases second
          rw [List.append_nil]
          exact delete_counts first fun ha => (hreach ha).1
        | waits first => exact delete_counts first fun ha => (hreach ha).1
        | crashes first => exact delete_counts first fun ha => (hreach ha).1
      | _ => cases hdeletes

/-- A call that has not ended its search with nothing has not gone on to compute a value. -/
lemma not_produces {x : Progress (Option (Except Failure (Option Value)))}
    (h : Trace s (search s call) log x) (hx : x ≠ .finished none) : ¬ Produces s call mode log := by
  rintro ⟨-, first, second, rfl, hfirst⟩
  exact hx (hfirst.not_longer h).2

/-- **A call that goes on to compute a value** counts that once, in its way, and other calls do not
count it. -/
theorem loads_of_trace (h : Trace s (call.program s) log r) (mode : String) :
    (Produces s call mode log ∧ log.countP (Contact.counts (.load mode)) = 1) ∨
      (¬ Produces s call mode log ∧ log.countP (Contact.counts (.load mode)) = 0) := by
  have hbalanced : ∀ {log : List Contact}, Balanced (.computing mode) log →
      log.countP (Contact.counts (.load mode)) = 0 := by
    intro log hlog
    have hnone : log.countP (fun _ => false) = 0 := by simp
    exact hlog.symm.trans hnone
  have hsearched : ∀ {log : List Contact} {x}, Trace s (search s call) log x →
      log.countP (Contact.counts (.load mode)) = 0 :=
    fun h => hbalanced (search_settles call _ _ h (.computing mode) (by simp [Settled]))
  cases hmode : modeOf call with
  | some mode' =>
    obtain ⟨f, hprogram, hdone, hcomputes⟩ := program_of_mode s hmode
    rw [hprogram] at h
    cases Trace.of_bind h with
    | @ends x _ _ _ first second =>
      cases x with
      | some x =>
        rw [hdone] at second
        cases second
        rw [List.append_nil]
        exact .inr ⟨not_produces first (by simp), hsearched first⟩
      | none =>
        obtain ⟨log', rfl, hlog'⟩ := hcomputes _ _ second
        rw [List.countP_append, List.countP_cons, hsearched first, hbalanced (hlog' _)]
        by_cases hsame : mode' = mode
        · subst hsame
          exact .inl ⟨⟨hmode, _, _, rfl, first⟩, by simp [Contact.counts]⟩
        · refine .inr ⟨fun hp => hsame (Option.some.inj (hmode.symm.trans hp.1)), ?_⟩
          simp [Contact.counts, hsame]
    | waits first => exact .inr ⟨not_produces first (by simp), hsearched first⟩
    | crashes first => exact .inr ⟨not_produces first (by simp), hsearched first⟩
  | none =>
    have hnot : ¬ Produces s call mode log := fun hp => by cases hmode.symm.trans hp.1
    refine .inr ⟨hnot, ?_⟩
    cases hdeletes : deletes call with
    | false => exact hbalanced (plain_settles hmode hdeletes _ _ h _ trivial)
    | true =>
      cases call with
      | delete key =>
        have hcounts : ∀ {log r}, Trace s (s.delete key) log r →
            log.countP (Contact.counts (.load mode)) = 0 :=
          fun h => hbalanced (delete_counts (ρ := ρ) h (by simp))
        cases Trace.of_bind h with
        | ends first second =>
          cases second
          rw [List.append_nil]
          exact hcounts first
        | waits first => exact hcounts first
        | crashes first => exact hcounts first
      | _ => cases hdeletes

end Calls

end Traffic

end LayeredCache
