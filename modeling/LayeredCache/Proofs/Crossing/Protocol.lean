import LayeredCache.Proofs.Cache.Deeds
import Mathlib.Logic.Function.Basic

/-!
# Calls that cross each other

A write changes the near tier and then the far tier, a deletion does the same, and a look-up that
finds nothing near asks the far tier and then copies what it got into the near tier. Between the two
steps of a call other calls may take theirs. The near tier is then left with bytes that the far tier
does not hold if two calls cross each other: one of them changes the near tier before the other does
and the far tier after it. This is the only way.

The calls of one key are followed here by their steps alone. A log says which caller did what, in
order, so that crossing can be said of it.

## Main definitions

* `Crossing.State`, `Crossing.Moves` — what the tiers hold under a key and how far the calls came,
  and the steps that calls take.
* `Crossing.Crossed` — the call that left an entry in the near tier was crossed by another.
* `Crossing.Tracked` — the invariant.

## Main results

* `Crossing.Tracked.step` — every step keeps the invariant.
* `Crossing.Tracked.agree_or_crossed` — when no write is under way, the tiers agree or two calls
  crossed each other.
-/

set_option autoImplicit false

namespace LayeredCache.Crossing

open Flight (Caller)

/-! ## What callers did -/

/-- What was done to the tiers, and by whom. -/
abbrev Log := List (Caller × Deed)

/-- A deed that changes what the near tier holds under a key. -/
inductive Lays (key : String) : Deed → Prop
  | put (content : Content) : Lays key (.put key content)
  | drop : Lays key (.drop key)

/-- A deed that changes what the far tier holds under a key. -/
inductive Sends (key : String) : Deed → Prop
  | write {condition : Condition} {data : Bytes} {ttl : Span} {answer : Except Failure Bool} :
      Sends key (.ask (.write condition key data ttl) answer)
  | delete {keys : List String} {answer : Except Failure Unit} (named : key ∈ keys) :
      Sends key (.ask (.delete keys) answer)

/-- A caller spoke to the far tier. -/
def Asked (log : Log) (i : Caller) : Prop :=
  ∃ (request : Far.Request) (answer : Except Failure request.Reply), (i, .ask request answer) ∈ log

/-- A caller changed what the near tier holds under a key. -/
def Laid (key : String) (log : Log) (i : Caller) : Prop := ∃ deed, (i, deed) ∈ log ∧ Lays key deed

/-- The latest deed of a kind in a log, with what came before it. -/
def Latest (kind : Deed → Prop) (log : Log) (e : Caller × Deed) (before : Log) : Prop :=
  kind e.2 ∧ ∃ after, log = before ++ e :: after ∧ ∀ e' ∈ after, ¬ kind e'.2

/-- What the far tier holds under a key comes from a caller that sent it when the caller `i` had
spoken to the far tier already, although it had changed the near tier in `before`. -/
def Surpassed (key : String) (log : Log) (i : Caller) (before : Log) : Prop :=
  ∃ j deed earlier, Latest (Sends key) log (j, deed) earlier ∧ Asked earlier i ∧ Laid key before j

/-- **Two calls crossed each other.** The latest change of a key in the near tier was a write of the
bytes `data`. Its caller was surpassed by one that changed the near tier before and the far tier
after it. -/
def Crossed (key : String) (log : Log) (data : Bytes) : Prop :=
  ∃ i before, Latest (Lays key) log (i, .put key (.stored data)) before ∧
    Surpassed key log i before

section Log

variable {key : String} {log before : Log} {i k : Caller} {deed : Deed} {kind : Deed → Prop}
  {e : Caller × Deed}

/-- Who spoke to the far tier did so, whatever comes later. -/
lemma Asked.append (h : Asked log i) (later : Log) : Asked (log ++ later) i :=
  let ⟨request, answer, hmem⟩ := h
  ⟨request, answer, List.mem_append_left _ hmem⟩

/-- Who changed the near tier did so, whatever comes later. -/
lemma Laid.append (h : Laid key log i) (later : Log) : Laid key (log ++ later) i :=
  let ⟨deed, hmem, hlays⟩ := h
  ⟨deed, List.mem_append_left _ hmem, hlays⟩

/-- Who spoke to the far tier, after one more deed. -/
lemma asked_snoc : Asked (log ++ [(k, deed)]) i ↔
    Asked log i ∨ k = i ∧ ∃ request answer, deed = .ask request answer := by
  simp only [Asked, List.mem_append, List.mem_singleton, Prod.mk.injEq]
  constructor
  · rintro ⟨request, answer, hmem | ⟨rfl, rfl⟩⟩
    · exact .inl ⟨request, answer, hmem⟩
    · exact .inr ⟨rfl, request, answer, rfl⟩
  · rintro (⟨request, answer, hmem⟩ | ⟨rfl, request, answer, rfl⟩)
    · exact ⟨request, answer, .inl hmem⟩
    · exact ⟨request, answer, .inr ⟨rfl, rfl⟩⟩

/-- Who has just changed the near tier. -/
lemma laid_snoc_self (h : Lays key deed) : Laid key (log ++ [(k, deed)]) k :=
  ⟨deed, by simp, h⟩

/-- What is the latest of its kind stays so when another kind comes. -/
lemma Latest.snoc (h : Latest kind log e before) (hother : ¬ kind deed) (k : Caller) :
    Latest kind (log ++ [(k, deed)]) e before := by
  obtain ⟨hkind, after, rfl, hafter⟩ := h
  refine ⟨hkind, after ++ [(k, deed)], by simp, fun e' he' => ?_⟩
  rcases List.mem_append.mp he' with he' | he'
  · exact hafter e' he'
  · obtain rfl := List.mem_singleton.mp he'
    exact hother

/-- What comes is the latest of its kind. -/
lemma Latest.new (h : kind deed) (log : Log) (k : Caller) :
    Latest kind (log ++ [(k, deed)]) (k, deed) log :=
  ⟨h, [], rfl, by simp⟩

/-- What came before the latest deed of a kind was in the log. -/
lemma Latest.asked (h : Latest kind log e before) (hasked : Asked before i) : Asked log i := by
  obtain ⟨-, after, rfl, -⟩ := h
  exact hasked.append _

/-- **A caller that changed the near tier** and did not do so last did it before. -/
lemma Latest.laid_before (h : Latest (Lays key) log e before) (hlaid : Laid key log k)
    (hother : k ≠ e.1) : Laid key before k := by
  obtain ⟨-, after, rfl, hafter⟩ := h
  obtain ⟨deed, hmem, hlays⟩ := hlaid
  rcases List.mem_append.mp hmem with hmem | hmem
  · exact ⟨deed, hmem, hlays⟩
  · rcases List.mem_cons.mp hmem with rfl | hmem
    · exact absurd rfl hother
    · exact absurd hlays (hafter _ hmem)

/-- Who was surpassed stays so until something is sent. -/
lemma Surpassed.snoc (h : Surpassed key log i before) (hquiet : ¬ Sends key deed) (k : Caller) :
    Surpassed key (log ++ [(k, deed)]) i before :=
  let ⟨j, deed, earlier, hlatest, hasked, hlaid⟩ := h
  ⟨j, deed, earlier, hlatest.snoc hquiet k, hasked, hlaid⟩

end Log

/-! ## Calls under way -/

/-- How far a call of a key came. -/
inductive Stage where
  /-- A look-up that has not heard from the far tier. -/
  | looking
  /-- A look-up that got bytes from the far tier and has to copy them. -/
  | copying (data : Bytes)
  /-- A write that has not begun. -/
  | setting (data : Bytes)
  /-- A write that has changed the near tier. -/
  | writing (data : Bytes)
  /-- A deletion that has not begun. -/
  | clearing
  /-- A deletion that has changed the near tier. -/
  | deleting
  /-- A call that does nothing to the tiers any more. -/
  | over

/-- A write or a deletion that has still to change the far tier. -/
def Stage.IsPending : Stage → Prop
  | .setting _ | .writing _ | .clearing | .deleting => True
  | _ => False

/-- A write or a deletion that has changed the near tier only. -/
def Stage.IsHalfway : Stage → Prop
  | .writing _ | .deleting => True
  | _ => False

/-- What the tiers hold under a key, how far the calls of the key came, and what they did. -/
structure State where
  near : Option Bytes
  far : Option Bytes
  stage : Caller → Stage
  log : Log := []

/-- How far a look-up comes with what the far tier holds. -/
def Stage.heard : Option Bytes → Stage
  | some data => .copying data
  | none => .over

/-- The steps of the calls of a key. -/
inductive Moves (key : String) : State → State → Prop
  /-- A call gives up before it has begun to write. -/
  | rests (s : State) (i : Caller) (unwritten : ¬ (s.stage i).IsHalfway) :
      Moves key s { s with stage := Function.update s.stage i .over }
  /-- The entry in the near tier expires. -/
  | vanishes (s : State) : Moves key s { s with near := none }
  /-- A look-up hears from the far tier. -/
  | hears (s : State) (i : Caller) (answer : Except Failure Bytes) (stage : s.stage i = .looking) :
      Moves key s { s with
        stage := Function.update s.stage i (.heard s.far)
        log := s.log ++ [(i, .ask (.get key) answer)] }
  /-- A look-up copies what it got into the near tier. -/
  | copies (s : State) (i : Caller) (data : Bytes) (stage : s.stage i = .copying data) :
      Moves key s { s with
        near := some data
        stage := Function.update s.stage i .over
        log := s.log ++ [(i, .put key (.stored data))] }
  /-- A write changes the near tier. -/
  | lays (s : State) (i : Caller) (data : Bytes) (stage : s.stage i = .setting data) :
      Moves key s { s with
        near := some data
        stage := Function.update s.stage i (.writing data)
        log := s.log ++ [(i, .put key (.stored data))] }
  /-- A write changes the far tier. -/
  | writes (s : State) (i : Caller) (data : Bytes) (condition : Condition) (ttl : Span)
      (answer : Except Failure Bool) (stage : s.stage i = .writing data) :
      Moves key s { s with
        far := some data
        stage := Function.update s.stage i .over
        log := s.log ++ [(i, .ask (.write condition key data ttl) answer)] }
  /-- A deletion changes the near tier. -/
  | clears (s : State) (i : Caller) (stage : s.stage i = .clearing) :
      Moves key s { s with
        near := none
        stage := Function.update s.stage i .deleting
        log := s.log ++ [(i, .drop key)] }
  /-- A deletion changes the far tier. -/
  | erases (s : State) (i : Caller) (answer : Except Failure Unit)
      (stage : s.stage i = .deleting) :
      Moves key s { s with
        far := none
        stage := Function.update s.stage i .over
        log := s.log ++ [(i, .ask (.delete [key]) answer)] }

/-! ## The invariant -/

/-- What a caller spoke of with the far tier is what that tier holds, or the caller was surpassed by
one that changed the near tier in `before`. -/
def Stands (key : String) (s : State) (i : Caller) (data : Bytes) (before : Log) : Prop :=
  Asked s.log i ∧ s.far = some data ∨ Surpassed key s.log i before

/-- What is known while calls of a key are under way. -/
structure Tracked (key : String) (s : State) : Prop where
  /-- Who has still to change the far tier has not spoken to it. -/
  unasked : ∀ i, (s.stage i).IsPending → ¬ Asked s.log i
  /-- Who is halfway has changed the near tier. -/
  laid : ∀ i, (s.stage i).IsHalfway → Laid key s.log i
  /-- What is to be copied is in the far tier, unless somebody changed it since. -/
  copying : ∀ i data, s.stage i = .copying data → Stands key s i data s.log
  /-- What is in the near tier was always there and is in the far tier as well, or was put there by
  a write that is halfway, or by a caller whose bytes are in the far tier unless it was
  surpassed. -/
  near : ∀ data, s.near = some data →
    (∀ e ∈ s.log, ¬ Lays key e.2) ∧ s.far = some data ∨
      ∃ i before, Latest (Lays key) s.log (i, .put key (.stored data)) before ∧
        (s.stage i = .writing data ∨ Stands key s i data before)

section Steps

variable {key : String} {s s' : State} {i k : Caller} {deed : Deed} {data : Bytes} {before : Log}
  {stage : Stage}

/-- Whose bytes stand has spoken to the far tier. -/
lemma Stands.asked (h : Stands key s i data before) : Asked s.log i := by
  rcases h with ⟨hasked, -⟩ | ⟨j, deed, earlier, hlatest, hasked, -⟩
  · exact hasked
  · exact hlatest.asked hasked

/-- Bytes stand until the far tier is changed. -/
lemma Stands.snoc (h : Stands key s i data before) (hquiet : ¬ Sends key deed) (k : Caller)
    (hlog : s'.log = s.log ++ [(k, deed)]) (hfar : s'.far = s.far) :
    Stands key s' i data before := by
  rw [Stands, hlog, hfar]
  rcases h with ⟨hasked, hdata⟩ | hsurpassed
  · exact .inl ⟨hasked.append _, hdata⟩
  · exact .inr (hsurpassed.snoc hquiet k)

/-- **Who changes the far tier** surpasses everybody that has spoken to it. -/
lemma Stands.surpass (h : Stands key s i data before) (hsends : Sends key deed)
    (hlaid : Laid key before k) (hlog : s'.log = s.log ++ [(k, deed)]) :
    Stands key s' i data before := by
  rw [Stands, hlog]
  exact .inr ⟨k, deed, s.log, .new hsends s.log k, h.asked, hlaid⟩

/-- Who is surpassed by callers of a log is surpassed by those of a longer one. -/
lemma Stands.later (h : Stands key s i data before) (later : Log) :
    Stands key s i data (before ++ later) :=
  h.imp_right fun ⟨j, deed, earlier, hlatest, hasked, hlaid⟩ =>
    ⟨j, deed, earlier, hlatest, hasked, hlaid.append later⟩

/-- A change of the near tier is not one of the far tier. -/
lemma Lays.not_sends (h : Lays key deed) : ¬ Sends key deed := by
  cases h <;> nofun

/-- A request to the far tier does not change the near tier. -/
lemma not_lays_ask {request : Far.Request} {answer : Except Failure request.Reply} :
    ¬ Lays key (.ask request answer) := nofun

/-- A look-up changes nothing in the far tier. -/
lemma not_sends_get {answer : Except Failure Bytes} : ¬ Sends key (.ask (.get key) answer) := nofun

/-- **The stages after a step**: what is true of the stage that a caller comes to, and of the
stages of all others, is true of every stage. -/
lemma forall_stage (hstage : s'.stage = Function.update s.stage k stage) {P : Caller → Stage → Prop}
    (hself : P k stage) (hothers : ∀ i, i ≠ k → P i (s.stage i)) : ∀ i, P i (s'.stage i) := by
  rw [hstage]
  exact (Function.forall_update_iff s.stage P).mpr ⟨hself, hothers⟩

/-- **One more deed** of a caller that comes to another stage: what is known of the callers. -/
lemma Tracked.callers (h : Tracked key s) (hlog : s'.log = s.log ++ [(k, deed)])
    (hstage : s'.stage = Function.update s.stage k stage)
    (hunasked : stage.IsPending → ¬ Asked s.log k ∧ ∀ request answer, deed ≠ .ask request answer)
    (hlaid : stage.IsHalfway → Lays key deed) :
    (∀ i, (s'.stage i).IsPending → ¬ Asked s'.log i) ∧
      ∀ i, (s'.stage i).IsHalfway → Laid key s'.log i := by
  rw [hlog]
  constructor
  · refine forall_stage hstage (P := fun i st => st.IsPending → ¬ Asked _ i)
      (fun hpending => ?_) fun i hik hpending => ?_
    · obtain ⟨hnot, hno⟩ := hunasked hpending
      rw [asked_snoc]
      rintro (hasked | ⟨-, request, answer, hdeed⟩)
      · exact hnot hasked
      · exact hno request answer hdeed
    · rw [asked_snoc]
      rintro (hasked | ⟨hki, -⟩)
      · exact h.unasked i hpending hasked
      · exact hik hki.symm
  · exact forall_stage hstage (P := fun i st => st.IsHalfway → Laid key _ i)
      (fun hhalfway => laid_snoc_self (hlaid hhalfway))
      fun i _ hhalfway => (h.laid i hhalfway).append _

/-- What is to be copied stands after one more deed if it stood before, whoever did it, and if what
the caller of the deed has to copy stands. -/
lemma Tracked.copying_snoc (h : Tracked key s) (hlog : s'.log = s.log ++ [(k, deed)])
    (hstage : s'.stage = Function.update s.stage k stage)
    (hself : ∀ data, stage = .copying data → Stands key s' k data s'.log)
    (hothers : ∀ i data, Stands key s i data s.log → Stands key s' i data s.log) (i : Caller)
    (data : Bytes) : s'.stage i = .copying data → Stands key s' i data s'.log := by
  refine forall_stage hstage (P := fun i st => st = .copying data → Stands key s' i data s'.log)
    (hself data) (fun i _ hi => ?_) i
  rw [hlog]
  exact (hothers i data (h.copying i data hi)).later _

/-- **A change of the near tier** keeps the invariant, when what is put there is about to be
written to the far tier or stands there. -/
lemma Tracked.lay (h : Tracked key s) (hlays : Lays key deed)
    (hlog : s'.log = s.log ++ [(k, deed)]) (hstage : s'.stage = Function.update s.stage k stage)
    (hfar : s'.far = s.far) (hunasked : stage.IsPending → ¬ Asked s.log k)
    (hcopying : ∀ data, stage ≠ .copying data)
    (hnear : ∀ data, s'.near = some data → deed = .put key (.stored data) ∧
      (stage = .writing data ∨ Stands key s k data s.log)) : Tracked key s' := by
  have hcallers := h.callers hlog hstage
    (fun hpending => ⟨hunasked hpending, fun request answer hdeed =>
      not_lays_ask (hdeed ▸ hlays)⟩) fun _ => hlays
  have hstands : ∀ i data, Stands key s i data s.log → Stands key s' i data s.log :=
    fun _ _ hstands => hstands.snoc hlays.not_sends k hlog hfar
  refine ⟨hcallers.1, hcallers.2, h.copying_snoc hlog hstage
    (fun data hself => absurd hself (hcopying data)) hstands, fun data hdata => .inr ?_⟩
  obtain ⟨rfl, hmade⟩ := hnear data hdata
  refine ⟨k, s.log, hlog ▸ .new hlays s.log k, hmade.imp (fun hwriting => ?_) (hstands k data)⟩
  rw [hstage, Function.update_self, hwriting]

/-- **A change of the far tier** keeps the invariant: who has spoken to that tier before is
surpassed, and a write has come to its end. -/
lemma Tracked.send (h : Tracked key s) (hhalfway : (s.stage k).IsHalfway)
    (hpending : (s.stage k).IsPending) (hsends : Sends key deed)
    (hlog : s'.log = s.log ++ [(k, deed)]) (hstage : s'.stage = Function.update s.stage k .over)
    (hnear : s'.near = s.near) (hask : ∃ request answer, deed = .ask request answer)
    (hfar : ∀ data, s.stage k = .writing data → s'.far = some data) : Tracked key s' := by
  have hlaid := h.laid k hhalfway
  have hunasked := h.unasked k hpending
  have hcallers := h.callers hlog hstage (fun hover => hover.elim) fun hover => hover.elim
  obtain ⟨request, answer, rfl⟩ := hask
  refine ⟨hcallers.1, hcallers.2, h.copying_snoc hlog hstage nofun
    fun _ _ hstands => hstands.surpass hsends hlaid hlog, fun data hdata => ?_⟩
  rw [hnear] at hdata
  rcases h.near data hdata with ⟨huntouched, -⟩ | ⟨i, before, hlatest, hmade⟩
  · -- the sender itself has changed the near tier
    obtain ⟨deed, hmem, hlays⟩ := hlaid
    exact absurd hlays (huntouched _ hmem)
  · refine .inr ⟨i, before, hlog ▸ hlatest.snoc not_lays_ask k, ?_⟩
    by_cases hik : i = k
    · subst hik
      rcases hmade with hwriting | hstands
      · refine .inr (.inl ⟨?_, hfar data hwriting⟩)
        rw [hlog, asked_snoc]
        exact .inr ⟨rfl, request, answer, rfl⟩
      · exact absurd hstands.asked hunasked
    · refine hmade.imp (fun hwriting => ?_) fun hstands => hstands.surpass hsends
        (hlatest.laid_before hlaid (Ne.symm hik)) hlog
      rw [hstage, Function.update_of_ne hik, hwriting]

/-- **A look-up that hears** from the far tier has got what stands there. -/
lemma Tracked.hear (h : Tracked key s) {answer : Except Failure Bytes}
    (hlog : s'.log = s.log ++ [(k, .ask (.get key) answer)])
    (hstage : s'.stage = Function.update s.stage k (.heard s.far)) (hlooking : s.stage k = .looking)
    (hnear : s'.near = s.near) (hfar : s'.far = s.far) : Tracked key s' := by
  have hidle : ¬ (Stage.heard s.far).IsPending ∧ ¬ (Stage.heard s.far).IsHalfway := by
    cases s.far <;> exact ⟨id, id⟩
  have hcallers := h.callers hlog hstage (fun hpending => absurd hpending hidle.1)
    fun hhalfway => absurd hhalfway hidle.2
  have hstands : ∀ i data before, Stands key s i data before → Stands key s' i data before :=
    fun _ _ _ hstands => hstands.snoc not_sends_get k hlog hfar
  have hgot : ∀ data, Stage.heard s.far = .copying data → s.far = some data := by
    intro data hheard
    cases hheld : s.far with
    | none =>
      rw [hheld] at hheard
      cases hheard
    | some held =>
      rw [hheld] at hheard
      cases hheard
      rfl
  have hasked : Asked s'.log k := by
    rw [hlog, asked_snoc]
    exact .inr ⟨rfl, _, _, rfl⟩
  refine ⟨hcallers.1, hcallers.2, h.copying_snoc hlog hstage
    (fun data hheard => .inl ⟨hasked, hfar.trans (hgot data hheard)⟩)
    fun i data => hstands i data s.log, fun data hdata => ?_⟩
  rw [hnear] at hdata
  rcases h.near data hdata with ⟨huntouched, hheld⟩ | ⟨i, before, hlatest, hmade⟩
  · refine .inl ⟨?_, hfar.trans hheld⟩
    rw [hlog]
    exact List.forall_mem_append.mpr ⟨huntouched, List.forall_mem_singleton.mpr not_lays_ask⟩
  · refine .inr ⟨i, before, hlog ▸ hlatest.snoc not_lays_ask k,
      hmade.imp (fun hwriting => ?_) (hstands i data before)⟩
    have hik : i ≠ k := by
      rintro rfl
      cases hwriting.symm.trans hlooking
    rw [hstage, Function.update_of_ne hik, hwriting]

/-- A call that gives up before it has changed a tier keeps the invariant. -/
lemma Tracked.rest (h : Tracked key s) (hunwritten : ¬ (s.stage k).IsHalfway) :
    Tracked key { s with stage := Function.update s.stage k .over } := by
  have hstage : ({ s with stage := Function.update s.stage k .over } : State).stage =
      Function.update s.stage k .over := rfl
  refine ⟨?_, ?_, fun i data => ?_, fun data hdata => ?_⟩
  · exact forall_stage hstage (P := fun i st => st.IsPending → ¬ Asked s.log i)
      (fun hover => hover.elim) fun i _ => h.unasked i
  · exact forall_stage hstage (P := fun i st => st.IsHalfway → Laid key s.log i)
      (fun hover => hover.elim) fun i _ => h.laid i
  · exact forall_stage hstage (P := fun i st => st = .copying data → Stands key s i data s.log)
      nofun (fun i _ => h.copying i data) i
  · refine (h.near data hdata).imp_right fun ⟨i, before, hlatest, hmade⟩ =>
      ⟨i, before, hlatest, hmade.imp_left fun hwriting => ?_⟩
    have hik : i ≠ k := by
      rintro rfl
      rw [hwriting] at hunwritten
      exact hunwritten trivial
    exact (Function.update_of_ne hik _ _).trans hwriting

/-- **Every step** keeps the invariant. -/
theorem Tracked.step (h : Tracked key s) (hmoves : Moves key s s') : Tracked key s' := by
  cases hmoves with
  | rests i hunwritten => exact h.rest hunwritten
  | vanishes => exact ⟨h.unasked, h.laid, h.copying, by simp⟩
  | hears i answer hlooking => exact h.hear rfl rfl hlooking rfl rfl
  | copies i data hcopying =>
    refine h.lay (.put _) rfl rfl rfl (fun hover => hover.elim) (by simp) fun d hd => ?_
    obtain rfl := Option.some.inj hd
    exact ⟨rfl, .inr (h.copying i _ hcopying)⟩
  | lays i data hsetting =>
    refine h.lay (.put _) rfl rfl rfl (fun _ => h.unasked i (hsetting ▸ trivial)) (by simp)
      fun d hd => ?_
    obtain rfl := Option.some.inj hd
    exact ⟨rfl, .inl rfl⟩
  | writes i data condition ttl answer hwriting =>
    refine h.send (hwriting ▸ trivial) (hwriting ▸ trivial) .write rfl rfl rfl ⟨_, _, rfl⟩
      fun d hd => ?_
    rw [hwriting, Stage.writing.injEq] at hd
    rw [hd]
  | clears i hclearing =>
    exact h.lay .drop rfl rfl rfl (fun _ => h.unasked i (hclearing ▸ trivial)) (by simp) (by simp)
  | erases i answer hdeleting =>
    refine h.send (hdeleting ▸ trivial) (hdeleting ▸ trivial) (.delete (by simp)) rfl rfl rfl
      ⟨_, _, rfl⟩ fun d hd => ?_
    cases hdeleting.symm.trans hd

/-- In the beginning the tiers agree, and every call is at its beginning or over. -/
lemma Tracked.start (hlog : s.log = [])
    (hstage : ∀ i, ¬ (s.stage i).IsHalfway ∧ ∀ data, s.stage i ≠ .copying data)
    (hagree : ∀ data, s.near = some data → s.far = some data) : Tracked key s where
  unasked i _ := by
    rw [hlog]
    rintro ⟨_, _, hmem⟩
    cases hmem
  laid i hi := absurd hi (hstage i).1
  copying i data hi := absurd hi ((hstage i).2 data)
  near data hdata := .inl ⟨by simp [hlog], hagree data hdata⟩

/-- **When no write is under way**, what the near tier holds is what the far tier holds, or two
calls crossed each other. -/
theorem Tracked.agree_or_crossed (h : Tracked key s) (hdone : ∀ i, s.stage i ≠ .writing data)
    (hnear : s.near = some data) : s.far = some data ∨ Crossed key s.log data := by
  rcases h.near data hnear with ⟨-, hfar⟩ | ⟨i, before, hlatest, hwriting | hstands⟩
  · exact .inl hfar
  · exact absurd hwriting (hdone i)
  · exact hstands.imp (fun ⟨_, hfar⟩ => hfar) fun hsurpassed => ⟨i, before, hlatest, hsurpassed⟩

end Steps

end LayeredCache.Crossing
