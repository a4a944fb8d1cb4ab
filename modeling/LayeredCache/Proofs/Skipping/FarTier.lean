import LayeredCache.Proofs.Cache.Readable
import LayeredCache.Proofs.Skipping.NearTier

/-!
# Calls that skip the far tier

A call may ask to leave the far tier alone. It then sends no request there and counts no look-up
there, on none of its paths. A call that skips the near tier as well leaves both tiers alone: it
finds nothing, writes nothing, and computes what it is asked for anew each time, even if the cache
has no tiers at all.

## Main definitions

* `Item.supply` — what an item gives at a visit of its caller.
* `Setup.ComputesAnew` — a value is computed anew, over the visits that this takes.
* `Serial.RunsDry` — what a call comes to that skips both tiers.
* `Serial.SparesFar`, `Serial.SparesBoth` — how far a call leaves the tiers alone.

## Main results

* `Setup.working_farFree` — the parts of an operation that skips the far tier.
* `Setup.take_of_skip`, `Setup.once_of_skip` — reading or computing without tiers is computing.
* `Setup.computesAnew_produce` — what follows the computation of a value.
* `Serial.skips_far` — the far tier is left alone, and both tiers when both are skipped.
-/

set_option autoImplicit false

namespace LayeredCache

open Far
open Prog (Throughout)

namespace Setup

variable {ρ σ : Type} [FarStore σ] {s : Setup} {ty : Ty} {key mode : String} {o : CallOptions}
  {item : Item ρ} {log : List Contact} {v : Value} {data : Bytes}

/-! ## The far tier -/

/-- Contacts without the far tier. -/
lemma additive_farFree : Contact.Additive Contact.FarFree := Contact.additive_forall _

section Skipped

variable (hskip : o.skip.far = true)
include hskip

/-- A call that skips the far tier does not use it. -/
lemma usesFar_of_skip : s.usesFar o = false := by
  rw [usesFar, (covers_eq o.skip).2.1, hskip, Bool.not_true, Bool.and_false]

/-- It looks nothing up there. -/
lemma fetch_of_skip {r : Progress Outcome} (h : s.FetchTrace key o log r) :
    log = [] ∧ r = .finished (.error .missing) := by
  have hunused := usesFar_of_skip (s := s) hskip
  cases h with
  | unused => exact ⟨rfl, rfl⟩
  | failed uses | crashed uses | copied uses | copyCrashed uses => cases uses.symm.trans hunused

/-- **Writes** send nothing there. -/
lemma farFree_store (v : Value) (data : Bytes) :
    Throughout s Contact.FarFree (s.store ty key v data o) := by
  intro log r h
  have hunused := usesFar_of_skip (s := s) hskip
  cases store_trace h with
  | skipped | noTiers => exact additive_farFree.nil
  | putCrashed => simp [Contact.FarFree, Contact.isFar]
  | near => unfold laying; split <;> simp [Contact.FarFree, Contact.isFar]
  | failed uses | crashed uses | applied uses => cases uses.symm.trans hunused

/-- **The parts of an operation** leave the far tier alone. -/
lemma working_farFree : s.Working Contact.FarFree key o where
  additive := additive_farFree
  lookup ty log r h := by
    have hsought : Contact.FarFree (s.seeking key o) := by
      unfold seeking
      split
      · simp [Contact.FarFree, Contact.isFar, nearLabel, farLabel]
      · exact additive_farFree.nil
    cases lookup_trace h with
    | skipped | noTiers => exact additive_farFree.nil
    | near => simp [Contact.FarFree, Contact.isFar, nearLabel, farLabel]
    | unfound fetch | far fetch | crashed fetch =>
      obtain ⟨rfl, hr⟩ := fetch_of_skip hskip fetch
      rw [List.append_nil]
      exact hsought
  heal log r h := by
    cases h with
    | count rest =>
      cases delete_trace rest with
      | near => unfold sweeping; split <;> simp [Contact.FarFree, Contact.isFar]
      | far uses =>
        rw [hskip, Bool.not_true, Bool.and_false] at uses
        cases uses
  collect _ := by simp [Contact.FarFree, Contact.isFar]
  lead _ := by simp [Contact.FarFree, Contact.isFar]
  land _ := by simp [Contact.FarFree, Contact.isFar]
  holds _ _ := by simp [Contact.FarFree, Contact.isFar]
  fetch log r h := by
    obtain ⟨rfl, -⟩ := fetch_of_skip hskip (fetch_trace h)
    exact additive_farFree.nil
  store ty v data := farFree_store hskip v data
  computes _ := by simp [Contact.FarFree, Contact.isFar]
  starts := by simp [Contact.FarFree, Contact.isFar]
  given _ := by simp [Contact.FarFree, Contact.isFar]

end Skipped

/-! ## Values that are computed -/

/-- A value that was computed, with its stored form. -/
def formed (s : Setup) (ty : Ty) : Except Failure Value → Except Failure (Value × Bytes)
  | .error f => .error f
  | .ok v =>
    match s.envelope.encode ty v with
    | .error f => .error (.envelope f)
    | .ok data => .ok (v, data)

/-- What a caller that computes alone is given: the value, if it has a stored form. -/
def takenOf (s : Setup) (ty : Ty) (produced : Except Failure Value) :
    Except Failure (Option Value) :=
  (s.formed ty produced).map fun made => some made.1

/-- What a caller that computes in a shared run is given: what the stored form is read as. -/
def sharedOf (s : Setup) (ty : Ty) (produced : Except Failure Value) :
    Except Failure (Option Value) :=
  receive ty ((s.formed ty produced).map Prod.snd)

/-- A value that is kept is given to a caller that computes it alone. -/
lemma takenOf_keeps (h : s.envelope.Keeps ty v data) : s.takenOf ty (.ok v) = .ok (some v) := by
  simp only [takenOf, formed, h.encode]
  rfl

/-- A value that is kept and not stored as nothing is given to a caller in a shared run. -/
lemma sharedOf_keeps (h : s.envelope.Keeps ty v data) (hdata : data ≠ []) :
    s.sharedOf ty (.ok v) = .ok (some v) := by
  simp only [sharedOf, formed, h.encode]
  show (Content.stored data).read ty = _
  rw [h.read, keptOf, if_neg hdata]

end Setup

/-- What an item gives at a visit of its caller: what its loader has given by then, or else its
plain value. -/
def Item.supply {ρ : Type} (item : Item ρ) (visit : Visit) : Option (Except Failure Value) :=
  if item.loader.isSome then visit.loaded.map Setup.loadedOf else some (Setup.plainOf item)

namespace Setup

variable {ρ σ : Type} [FarStore σ] {s : Setup} {ty : Ty} {key mode : String} {o : CallOptions}
  {item : Item ρ} {c c₁ : Cache σ} {visit : Visit}
  {answer : Except Failure Value → Except Failure (Option Value)}
  {p q : Prog (Except Failure (Option Value))}

/-- A program computes the value of an item anew: it runs the loader, or else takes the plain value,
and gives what `answer` makes of it. -/
structure ComputesAnew (s : Setup) (ty : Ty) (item : Item ρ)
    (answer : Except Failure Value → Except Failure (Option Value))
    (p : Prog (Except Failure (Option Value))) (c : Cache σ) (visit : Visit) : Prop where
  /-- The answer to a value that is kept and not stored as nothing is the value. -/
  value : ∀ v data, s.envelope.Keeps ty v data → data ≠ [] → answer (.ok v) = .ok (some v)
  /-- The loader is started once, if there is one. -/
  started : (p.visit visit c).2.started =
    c.started ++ if item.loader.isSome then [visit.caller] else []
  /-- What the item gives at the first visit is given then. -/
  now : ∀ produced, item.supply visit = some produced →
    (p.visit visit c).1 = .finished (answer produced)
  /-- Until the loader has given something the program waits for it, whatever others do meanwhile,
  and does not start it again; then it gives what the loader has given. -/
  later : item.supply visit = none → ∃ rest, (p.visit visit c).1 = .blocked rest ∧
    ∀ (d : Cache σ) (visit' : Visit), (rest.visit visit' d).2.started = d.started ∧
      (rest.visit visit' d).1 = match visit'.loaded with
        | some given => .finished (answer (loadedOf given))
        | none => .blocked rest

/-- Programs that go on alike from their first visit on. -/
lemma ComputesAnew.of_visit (h : ComputesAnew s ty item answer q c₁ visit)
    (hvisit : p.visit visit c = q.visit visit c₁) (hstarted : c₁.started = c.started) :
    ComputesAnew s ty item answer p c visit where
  value := h.value
  started := by rw [hvisit, h.started, hstarted]
  now := hvisit ▸ h.now
  later := hvisit ▸ h.later

/-- **What follows the computation of a value**, if it starts no loader and gives an answer. -/
theorem computesAnew_produce {k : Except Failure Value → Prog (Except Failure (Option Value))}
    (hvalue : ∀ v data, s.envelope.Keeps ty v data → data ≠ [] → answer (.ok v) = .ok (some v))
    (hk : ∀ produced (d : Cache σ) (visit' : Visit), ∃ d',
      (k produced).visit visit' d = (.finished (answer produced), d') ∧ d'.started = d.started)
    (mode : String) (c : Cache σ) (visit : Visit) :
    ComputesAnew s ty item answer ((produce item mode).bind k) c visit := by
  cases hloader : item.loader with
  | none =>
    rw [produce_of_plain hloader]
    obtain ⟨d', hgives, hstarted⟩ := hk (plainOf item) (c.recordEvent (.load mode)) visit
    have hvisit : (Prog.bind (.count (.load mode) (.done (plainOf item))) k).visit visit c =
        (.finished (answer (plainOf item)), d') := hgives
    have hsupply : item.supply visit = some (plainOf item) := by rw [Item.supply, hloader]; rfl
    refine ⟨hvalue, ?_, fun produced hproduced => ?_, fun hnone => ?_⟩
    · rw [hvisit, hloader]
      exact hstarted.trans (List.append_nil _).symm
    · rw [hvisit, Option.some.inj (hsupply.symm.trans hproduced)]
    · cases hsupply.symm.trans hnone
  | some loader =>
    rw [produce_of_loader hloader]
    -- what waits for the loader
    let rest : Prog (Except Failure (Option Value)) := .awaitLoad fun given => k (loadedOf given)
    have hrest : ∀ (d : Cache σ) (visit' : Visit), (rest.visit visit' d).2.started = d.started ∧
        (rest.visit visit' d).1 = match visit'.loaded with
          | some given => .finished (answer (loadedOf given))
          | none => .blocked rest := by
      intro d visit'
      cases hloaded : visit'.loaded with
      | none => simp [rest, Prog.visit, Prog.run, hloaded]
      | some given =>
        obtain ⟨d', hgives, hstarted⟩ := hk (loadedOf given) d visit'
        have hvisit : rest.visit visit' d = (k (loadedOf given)).visit visit' d := by
          simp only [rest, Prog.visit, Prog.run, hloaded]
        rw [hvisit, hgives]
        exact ⟨hstarted, rfl⟩
    let c₁ : Cache σ :=
      { c.recordEvent (.load mode) with started := c.started ++ [visit.caller] }
    have hvisit : (Prog.bind (.count (.load mode) (.startLoad (.awaitLoad fun given =>
        .done (loadedOf given)))) k).visit visit c = rest.visit visit c₁ := rfl
    obtain ⟨hstarted, hgives⟩ := hrest c₁ visit
    rw [← hvisit] at hstarted hgives
    have hsupply : item.supply visit = visit.loaded.map loadedOf := by
      rw [Item.supply, hloader]
      rfl
    refine ⟨hvalue, ?_, fun produced hproduced => ?_, fun hnone => ⟨rest, ?_, hrest⟩⟩
    · rw [hstarted, hloader]
      rfl
    · obtain ⟨given, hloaded, rfl⟩ := Option.map_eq_some_iff.mp (hsupply.symm.trans hproduced)
      rw [hgives, hloaded]
    · rw [hgives, Option.map_eq_none_iff.mp (hsupply.symm.trans hnone)]

/-! ## Calls without tiers -/

section Skipped

variable (hnear : o.skip.near = true) (hfar : o.skip.far = true)
include hnear hfar

/-- Skipping each tier is skipping both. -/
lemma covers_of_skip : o.skip.covers .all = true := by
  rw [(covers_eq o.skip).2.2, hnear, hfar]
  rfl

/-- A look-up finds nothing. -/
lemma lookup_of_skip (ty : Ty) (key : String) :
    s.lookup ty key o = .done (.error .missing) := by
  rw [lookup, if_pos (covers_of_skip hnear hfar)]

/-- No key is there. -/
lemma has_of_skip (key : String) : s.has key o = .done false := by
  rw [Setup.has, covers_of_skip hnear hfar]
  rfl

/-- A write does nothing. -/
lemma store_of_skip (ty : Ty) (key : String) (v : Value) (data : Bytes) :
    s.store ty key v data o = .done (.ok ()) := by
  rw [store, if_pos (covers_of_skip hnear hfar)]

/-- Setting a value is encoding it. -/
lemma set_of_skip (ty : Ty) (key : String) (v : Value) :
    s.set ty key v o = .done (((s.envelope.encode ty v).mapError .envelope).map fun _ => ()) := by
  unfold Setup.set
  cases s.envelope.encode ty v with
  | error f => rfl
  | ok data => exact store_of_skip hnear hfar ty key v data

end Skipped

section Skipped

variable (hnear : item.options.skip.near = true) (hfar : item.options.skip.far = true)
include hnear hfar

/-- Making a value is computing and encoding it. -/
lemma make_of_skip (mode : String) : s.make ty item mode =
    (produce item mode).bind fun produced => .done (s.formed ty produced) := by
  refine congrArg (Prog.bind _ ·) (funext fun produced => ?_)
  cases produced with
  | error f => rfl
  | ok v =>
    simp only [keep, formed]
    cases s.envelope.encode ty v with
    | error f => rfl
    | ok data =>
      dsimp only
      rw [store_of_skip hnear hfar]
      rfl

/-- **Reading or computing** is computing. -/
lemma take_of_skip : s.take ty item =
    (produce item "take").bind fun produced => .done (s.takenOf ty produced) := by
  rw [take_eq, seek, lookup_of_skip hnear hfar]
  show s.compute ty item = _
  rw [compute_eq, make_of_skip hnear hfar, Prog.bind_assoc]
  rfl

/-- **Reading or computing in a shared run** is joining it and, if the caller is to run itself,
computing. -/
lemma once_of_skip : s.once ty item = .join item.key fun
    | some outcome => .done (receive ty outcome)
    | none => (produce item "once").bind fun produced =>
        landed ty ((s.formed ty produced).map Prod.snd) := by
  rw [once_eq_seek, seekShared, lookup_of_skip hnear hfar]
  refine congrArg (Prog.join item.key) (funext fun received => ?_)
  cases received with
  | some outcome => rfl
  | none =>
    show (Prog.bind ((s.seekStored ty item).bind (landedUnless ty)) _) = _
    rw [seekStored, lookup_of_skip hnear hfar]
    show (s.computeStored ty item).bind (landed ty) = _
    rw [computeStored_eq_make, make_of_skip hnear hfar, Prog.bind_assoc, Prog.bind_assoc]
    rfl

/-- **A caller that computes alone** computes anew. -/
lemma take_anew (c : Cache σ) (visit : Visit) :
    ComputesAnew s ty item (s.takenOf ty) (s.take ty item) c visit := by
  rw [take_of_skip hnear hfar]
  exact computesAnew_produce (fun v data hkeeps _ => takenOf_keeps hkeeps)
    (fun produced d visit' => ⟨d, rfl, rfl⟩) "take" c visit

/-- **A caller that comes alone to its shared run** computes anew. -/
lemma once_anew (halone : c.flights.ComesAlone visit.caller item.key) :
    ComputesAnew s ty item (s.sharedOf ty) (s.once ty item) c visit := by
  rw [once_of_skip hnear hfar]
  refine .of_visit ?_ (Prog.visit_congr (Prog.run_join_alone halone)) rfl
  refine computesAnew_produce (fun v data hkeeps hdata => sharedOf_keeps hkeeps hdata)
    (fun produced d visit' => ?_) "once" _ visit
  let outcome : Outcome := (s.formed ty produced).map Prod.snd
  exact ⟨{ d with flights := d.flights.land visit'.caller outcome }, rfl, rfl⟩

end Skipped

end Setup

/-! ## Calls -/

namespace Serial

variable {ρ σ : Type} [FarStore σ] {s : Setup} {call : Call ρ} {q : Prog Unit} {c : Cache σ}
  {log : List Contact}

/-- What a call comes to that skips both tiers, on any cache, also on one without tiers. In a shared
run this is said of a caller that comes alone; the table of shared runs is in order then, as it is
after every course of calls (`Effort.accounted_after`). -/
def RunsDry (σ : Type) [FarStore σ] (s : Setup) : Call ρ → Prop
  | .get ty key o => ∀ (c : Cache σ) (visit : Visit),
      (s.get ty key o).visit visit c = (.finished (.error .missing), c)
  | .has key o => ∀ (c : Cache σ) (visit : Visit),
      (s.has key o).visit visit c = (.finished false, c)
  | .set ty key v o => ∀ (c : Cache σ) (visit : Visit), (s.set ty key v o).visit visit c =
      (.finished (((s.envelope.encode ty v).mapError .envelope).map fun _ => ()), c)
  | .delete _ => True
  | .take ty item => ∀ (c : Cache σ) (visit : Visit),
      s.ComputesAnew ty item (s.takenOf ty) (s.take ty item) c visit
  | .once ty item => ∀ (c : Cache σ) (visit : Visit),
      c.flights.ComesAlone visit.caller item.key →
        s.ComputesAnew ty item (s.sharedOf ty) (s.once ty item) c visit
  | .load ty item => ∀ (c : Cache σ) (visit : Visit),
      (item.options.group = false →
        s.ComputesAnew ty item (s.takenOf ty) (s.load ty item) c visit) ∧
      (item.options.group = true → c.flights.ComesAlone visit.caller item.key →
        s.ComputesAnew ty item (s.sharedOf ty) (s.load ty item) c visit)

/-- How far a call that skips both tiers leaves them alone. -/
structure SparesBoth (σ : Type) [FarStore σ] (s : Setup) (call : Call ρ) : Prop where
  /-- Whatever others do in between, it makes no contact with the near tier. -/
  contacts : ∀ log r, Prog.Proceeds σ s (call.program s) log r → ∀ x ∈ log, x.isNear = false
  /-- Each poll of the call leaves the near tier as it is. -/
  polls : ∀ q, Prog.Pending σ s (call.program s) q → ∀ (c : Cache σ) (visit : Visit),
    c.setup = s → (q.visit visit c).2.near = c.near
  /-- Look-ups find nothing, writes do nothing, and a value is computed anew each time. -/
  runs : RunsDry σ s call

/-- How far a call leaves the far tier alone. -/
structure SparesFar (σ : Type) [FarStore σ] (s : Setup) (call : Call ρ) : Prop where
  /-- Whatever others do in between, it sends no request to the far tier and counts none. -/
  contacts : ∀ log r, Prog.Proceeds σ s (call.program s) log r → Contact.FarFree log
  /-- Each poll of the call leaves the far tier as it is, and its tally and counts. -/
  polls : ∀ q, Prog.Pending σ s (call.program s) q → ∀ (c : Cache σ) (visit : Visit),
    c.setup = s → c.FarKept (q.visit visit c).2
  /-- If it skips the near tier as well, it leaves both alone. -/
  both : call.options.skip.near = true → SparesBoth σ s call

/-- A call that skips the far tier makes no contact with it. -/
lemma farFree_program (hskip : call.options.skip.far = true) :
    Throughout s Contact.FarFree (call.program s) :=
  (Setup.working_farFree hskip).call (call.ne_delete (.inr hskip))

/-- Neither does what is left of such a call. -/
lemma farFree_of_pending (hskip : call.options.skip.far = true)
    (hq : Prog.Pending σ s (call.program s) q) (hs : c.setup = s) (visit : Visit) :
    Contact.FarFree (q.contacts visit c) := by
  obtain ⟨log, r, -, htrace⟩ :=
    hq.contacts Setup.additive_farFree (farFree_program hskip) hs visit
  exact fun x hx => farFree_program hskip _ _ htrace x (List.mem_append_right _ hx)

/-- A call that skips both tiers makes no contact with the near tier either.

**Proof sketch.** The near tier might forget a key whose write was refused, but then a request was
sent to the far tier. -/
lemma nearFree_of_trace (hnear : call.options.skip.near = true)
    (hfar : call.options.skip.far = true) {r : Progress Unit}
    (h : Prog.Trace s (call.program s) log r) : ∀ x ∈ log, x.isNear = false := by
  have hrefuses : log.any Contact.refuses = false := by
    rw [List.any_eq_false]
    intro x hx hrefused
    have hfree := farFree_program hfar _ _ h x hx
    cases x with
    | ask request answer => cases hfree
    | _ => cases hrefused
  have htrace : Prog.Trace s (call.program s) ([] ++ log) r := h
  have hcontacts := near_contacts hnear htrace (Setup.additive_forgets s call.key).nil
  rw [hrefuses] at hcontacts
  intro x hx
  exact Bool.eq_false_iff.mpr fun hx' => List.filter_eq_nil_iff.mp hcontacts x hx hx'

/-- **What a call comes to that skips both tiers**, one case for each kind of call. -/
theorem runsDry (σ : Type) [FarStore σ] (s : Setup) (hnear : call.options.skip.near = true)
    (hfar : call.options.skip.far = true) : RunsDry σ s call := by
  cases call with
  | set ty key v o =>
    intro c visit
    rw [Setup.set_of_skip (o := o) hnear hfar]
    rfl
  | get ty key o =>
    intro c visit
    rw [Setup.get, Setup.lookup_of_skip (o := o) hnear hfar]
    rfl
  | has key o =>
    intro c visit
    rw [Setup.has_of_skip (o := o) hnear hfar]
    rfl
  | delete key => trivial
  | take ty item => exact Setup.take_anew hnear hfar
  | once ty item => exact fun c visit halone => Setup.once_anew hnear hfar halone
  | load ty item =>
    refine fun c visit => ⟨fun hgroup => ?_, fun hgroup halone => ?_⟩
    · rw [Setup.load, hgroup]
      exact Setup.take_anew hnear hfar c visit
    · rw [Setup.load, hgroup]
      exact Setup.once_anew hnear hfar halone

/-- **A call that skips the far tier** leaves it alone, and if it skips the near tier as well it
leaves both alone and computes anew what it is asked for.

**Proof sketch.** None of the parts of an operation makes a contact with the far tier. When both are
skipped, look-ups and writes are done at once, so that what remains is computing the value. -/
theorem skips_far (s : Setup) (call : Call ρ) (hskip : call.options.skip.far = true) :
    SparesFar σ s call where
  contacts _ _ h := farFree_program hskip _ _ h.trace
  polls _ hq _ visit hs := Prog.far_visit (farFree_of_pending hskip hq hs visit)
  both hnear :=
    { contacts := fun _ _ h => nearFree_of_trace hnear hskip h.trace
      polls := fun _ hq _ visit hs =>
        near_kept hnear (.inr (Setup.usesFar_of_skip hskip)) hq hs visit
      runs := runsDry σ s hnear hskip }

/-- A load inside a shared run that skips both tiers. -/
def freshLoad : Call Unit :=
  .load (.scalar (.int .int64))
    { key := "k", loader := some (), options := { skip := .all, group := true } }

/-- A shared load that skips both of two tiers leaves them alone, and computes anew where its caller
comes alone, as the first caller of all does. -/
theorem skips_far_freshLoad :
    freshLoad.options.skip.far = true ∧ SparesFar MemoryStore ⟨true, true, {}⟩ freshLoad ∧
      ({} : Flight.Group Outcome).ComesAlone 0 "k" :=
  ⟨rfl, skips_far ⟨true, true, {}⟩ freshLoad rfl,
    Flight.Group.orderly_empty, rfl, fun _ _ => Flight.Group.not_sits_empty⟩

end Serial

end LayeredCache
