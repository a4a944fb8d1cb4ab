import LayeredCache.Flight.Crowd
import LayeredCache.Proofs.Flight.Order
import Mathlib.Data.List.Induction

/-!
# What happens in a crowd

Callers come, are polled and are dropped in any order, and what their runs give becomes known at
any time. Whatever the order, the calls stay orderly and a caller has begun its run exactly while
it conducts one. One step either completes one call, or lets one caller collect an output, or does
nothing to the calls that are complete beyond letting a dropped caller go.

## Main definitions

* `Flight.Move`, `Flight.Crowd.step`, `Flight.Crowd.after` — the events and a history of them.
* `Flight.Crowd.Orderly` — the invariant of a crowd.
* `Flight.Crowd.Ends` — at its next poll the run of a caller ends.
* `Flight.Crowd.Landing` — the end of a run, which completes a call.
* `Flight.Crowd.Stepped` — what a step can do.

## Main results

* `Flight.Crowd.Orderly.step` — every step keeps the invariant.
* `Flight.Crowd.orderly_after` — the invariant holds after every history.
* `Flight.Crowd.Orderly.stepped` — every step does what `Stepped` says.
-/

set_option autoImplicit false

namespace LayeredCache.Flight

variable {τ : Type}

/-- What can happen in a crowd. -/
inductive Move (τ : Type) where
  /-- A caller comes; what its run gives may be known already. -/
  | add (key : String) (result : Option τ)
  | poll (caller : Caller)
  | drop (caller : Caller)
  /-- What the run of a caller gives becomes known. -/
  | supply (caller : Caller) (output : τ)

namespace Crowd

/-- The crowd after an event. -/
def step (c : Crowd τ) : Move τ → Crowd τ
  | .add key result => c.add key result
  | .poll i => c.poll i
  | .drop i => c.drop i
  | .supply i output => c.supply i output

/-- The crowd after a history of events. -/
def after (moves : List (Move τ)) : Crowd τ := moves.foldl step {}

/-- A history that goes on by one event. -/
lemma after_snoc (moves : List (Move τ)) (e : Move τ) :
    after (moves ++ [e]) = (after moves).step e := by
  rw [after, List.foldl_append]
  rfl

/-! ## Members -/

section Members

variable {c : Crowd τ} {i j : Caller} {m : Member τ}

/-- A caller is live when its stage says so. -/
lemma isLive_iff : c.isLive i = true ↔ ∃ m, c.members[i]? = some m ∧ m.stage = .live := by
  unfold isLive
  cases hm : c.members[i]? with
  | none => simp
  | some m =>
    cases hs : m.stage <;> simp [hs]

/-- The members after one of them has come further. -/
lemma members_setStage (c : Crowd τ) (i : Caller) (stage : Stage τ) (j : Caller) :
    (c.setStage i stage).members[j]? =
      if j = i then (c.members[j]?).map fun m => { m with stage := stage } else c.members[j]? := by
  rw [setStage, List.getElem?_modify]
  by_cases hj : j = i
  · subst hj
    simp
  · simp [hj, Ne.symm hj]

/-- The members after the result of one of them became known. -/
lemma members_supply (c : Crowd τ) (i : Caller) (output : τ) (j : Caller) :
    (c.supply i output).members[j]? =
      (c.members[j]?).map fun m => if j = i then { m with result := some output } else m := by
  rw [supply, List.getElem?_modify]
  by_cases hj : j = i
  · subst hj
    simp
  · simp [hj, Ne.symm hj]

/-- The members after a caller came. -/
lemma members_add (c : Crowd τ) (key : String) (result : Option τ) (j : Nat) :
    (c.add key result).members[j]? =
      if j = c.members.length then some { key := key, result := result } else c.members[j]? := by
  rw [add, List.getElem?_append]
  by_cases hlt : j < c.members.length
  · rw [if_pos hlt, if_neg (by omega)]
  · rw [if_neg hlt]
    by_cases heq : j = c.members.length
    · simp [heq]
    · rw [if_neg heq, List.getElem?_eq_none (by simp; omega), List.getElem?_eq_none (by omega)]

end Members

/-! ## The invariant -/

/-- What holds of a crowd between two events. -/
structure Orderly (c : Crowd τ) : Prop where
  group : c.group.Orderly
  /-- Only live callers are inside calls, each inside a call of its key. -/
  seated : ∀ i p key output, c.group.Sits i p key output →
    ∃ m, c.members[i]? = some m ∧ m.stage = .live ∧ m.key = key
  /-- A live caller has begun its run exactly while it conducts a call. -/
  ran : ∀ i m, c.members[i]? = some m → m.stage = .live → (i ∈ c.ran ↔ c.group.Runs i)
  known : ∀ i ∈ c.ran, ∃ m, c.members[i]? = some m

/-- A crowd in which nothing has happened is orderly. -/
lemma orderly_empty : Orderly ({} : Crowd τ) where
  group := Group.orderly_empty
  seated i p key output h := by
    obtain ⟨d, hd, -, -⟩ := h
    simp [Group.Seated] at hd
  ran i m h := by simp at h
  known i h := by simp at h

namespace Orderly

variable {c c' : Crowd τ} {i : Caller} {m : Member τ}

/-- A caller that joins leaves a crowd orderly. -/
lemma join (h : c.Orderly) (hm : c.members[i]? = some m) (hlive : m.stage = .live) :
    Orderly { c with group := c.group.join i m.key } where
  group := h.group.orderly_join i m.key
  seated w p key output hw := by
    have hkey : ∀ p key' output, c.group.Sits i p key' output → key' = m.key := by
      intro p key' output hi
      obtain ⟨m', hm', -, hk⟩ := h.seated i p key' output hi
      obtain rfl : m = m' := Option.some.inj (hm.symm.trans hm')
      exact hk.symm
    obtain ⟨hothers, p', output', hi, -⟩ := h.group.sits_join hkey
    by_cases hwi : w = i
    · subst hwi
      obtain ⟨-, hk, -⟩ := (h.group.orderly_join w m.key).sits_unique hi hw
      exact ⟨m, hm, hlive, hk⟩
    · exact h.seated w p key output ((hothers w hwi p key output).mp hw)
  ran w m' hm' hlive' := (h.ran w m' hm' hlive').trans h.group.runs_join.symm
  known := h.known

/-- A caller that begins its run leaves a crowd orderly. -/
lemma start (h : c.Orderly) {p : Nat} {call : Call τ} (hc : c.group.calls[p]? = some call)
    (hhead : call.line.head? = some i) (hout : call.output = none)
    (hm : c.members[i]? = some m) :
    Orderly { c with group := c.group.start i, ran := c.ran ++ [i] } where
  group := (h.group.start hc hhead).1
  seated w q key output hw := h.seated w q key output ((h.group.sits_start hc hhead).mp hw)
  ran w m' hm' hlive' := by
    rw [h.group.runs_start hc hhead hout, ← h.ran w m' hm' hlive']
    simp
  known w hw := by
    rcases List.mem_append.mp hw with hw | hw
    · exact h.known w hw
    · obtain rfl : w = i := by simpa using hw
      exact ⟨m, hm⟩

/-- A caller that goes, with an output or without, leaves a crowd orderly if its seat is empty
then and nobody else is moved. -/
lemma depart (h : c.Orderly) {stage : Stage τ} (hstage : stage ≠ .live)
    (hmembers : c'.members = (c.setStage i stage).members) (hran : c'.ran = c.ran)
    (hgroup : c'.group.Orderly)
    (hsits : ∀ w p key output, c'.group.Sits w p key output →
      w ≠ i ∧ ∃ output', c.group.Sits w p key output')
    (hruns : ∀ w, c'.group.Runs w ↔ w ≠ i ∧ c.group.Runs w) : c'.Orderly where
  group := hgroup
  seated w p key output hw := by
    obtain ⟨hwi, output', hw⟩ := hsits w p key output hw
    rw [hmembers, members_setStage, if_neg hwi]
    exact h.seated w p key output' hw
  ran w m' hm' hlive' := by
    rw [hmembers, members_setStage] at hm'
    by_cases hwi : w = i
    · rw [if_pos hwi] at hm'
      obtain ⟨m, -, rfl⟩ := Option.map_eq_some_iff.mp hm'
      exact absurd hlive' hstage
    · rw [if_neg hwi] at hm'
      rw [hran, hruns, h.ran w m' hm' hlive']
      simp [hwi]
  known w hw := by
    obtain ⟨m, hm⟩ := h.known w (hran ▸ hw)
    rw [hmembers, members_setStage]
    by_cases hwi : w = i
    · rw [if_pos hwi, hm]
      exact ⟨_, rfl⟩
    · rw [if_neg hwi]
      exact ⟨m, hm⟩

/-- A caller that is dropped leaves a crowd orderly. -/
lemma drop (h : c.Orderly) (i : Caller) : (c.drop i).Orderly := by
  unfold Crowd.drop
  by_cases hi : c.isLive i = true
  · rw [if_pos hi]
    have hstage : (Stage.dropped : Stage τ) ≠ .live := by simp
    refine h.depart hstage rfl rfl (h.group.orderly_leave i) ?_ ?_
    · intro w p key output hw
      obtain ⟨hwi, hw⟩ := h.group.sits_leave.mp hw
      exact ⟨hwi, output, hw⟩
    · exact fun w => h.group.runs_leave
  · rw [if_neg hi]
    exact h

/-- A result that becomes known leaves a crowd orderly. -/
lemma supply (h : c.Orderly) (i : Caller) (output : τ) : (c.supply i output).Orderly where
  group := h.group
  seated w p key out hw := by
    obtain ⟨m, hm, hlive, hk⟩ := h.seated w p key out hw
    rw [members_supply, hm]
    refine ⟨_, rfl, ?_, ?_⟩ <;> split <;> assumption
  ran w m' hm' hlive' := by
    rw [members_supply] at hm'
    obtain ⟨m, hm, rfl⟩ := Option.map_eq_some_iff.mp hm'
    refine h.ran w m hm ?_
    split at hlive' <;> exact hlive'
  known w hw := by
    obtain ⟨m, hm⟩ := h.known w hw
    rw [members_supply, hm]
    exact ⟨_, rfl⟩

/-- A caller that comes leaves a crowd orderly. -/
lemma add (h : c.Orderly) (key : String) (result : Option τ) : (c.add key result).Orderly where
  group := h.group
  seated w p key' out hw := by
    obtain ⟨m, hm, hlive, hk⟩ := h.seated w p key' out hw
    have hlt : w < c.members.length := (List.getElem?_eq_some_iff.mp hm).1
    rw [members_add, if_neg (Nat.ne_of_lt hlt)]
    exact ⟨m, hm, hlive, hk⟩
  ran w m' hm' hlive' := by
    rw [members_add] at hm'
    by_cases hw : w = c.members.length
    · -- nobody knows the new caller yet
      have hnone : c.members[w]? = none := List.getElem?_eq_none (Nat.le_of_eq hw.symm)
      constructor
      · intro hran
        obtain ⟨m, hm⟩ := h.known w hran
        cases hnone.symm.trans hm
      · intro hruns
        obtain ⟨p, key', hs⟩ := Group.Orderly.sits_of_runs hruns
        obtain ⟨m, hm, -⟩ := h.seated w p key' none hs
        cases hnone.symm.trans hm
    · rw [if_neg hw] at hm'
      exact h.ran w m' hm' hlive'
  known w hw := by
    obtain ⟨m, hm⟩ := h.known w hw
    have hlt : w < c.members.length := (List.getElem?_eq_some_iff.mp hm).1
    rw [members_add, if_neg (Nat.ne_of_lt hlt)]
    exact ⟨m, hm⟩

end Orderly

/-! ## What a step can do -/

/-- A caller of a key has returned an output, of another caller's run if `shared`. -/
def Returned (c : Crowd τ) (i : Caller) (key : String) (output : τ) (shared : Bool) : Prop :=
  ∃ m, c.members[i]? = some m ∧ m.key = key ∧ m.stage = .returned output shared

/-- At its next poll the run of a live caller ends with an output: the run has begun by then, and
the caller is not live any more. -/
def Ends (c : Crowd τ) (i : Caller) (output : τ) : Prop :=
  ∃ m, c.members[i]? = some m ∧ m.stage = .live ∧ m.result = some output ∧
    i ∈ (c.poll i).ran ∧ (c.poll i).isLive i = false

/-- In a step from `c` to `c'` the run of a caller ends with an output and completes the call at a
place; the callers that wait for the key are inside that call. -/
structure Landing (c c' : Crowd τ) (j : Caller) (p : Nat) (key : String) (v : τ) : Prop where
  ends : c.Ends j v
  member : ∃ m, c.members[j]? = some m ∧ m.key = key
  returned : ∀ w key' v' shared, c'.Returned w key' v' shared ↔
    (w = j ∧ key' = key ∧ v' = v ∧ shared = false) ∨ c.Returned w key' v' shared
  sits : ∀ w q key' v', c'.group.Sits w q key' (some v') ↔
    (w ≠ j ∧ q = p ∧ v' = v ∧ c.group.Sits w p key' none) ∨ c.group.Sits w q key' (some v')
  /-- The caller is inside no complete call. -/
  outside : ∀ q key' v', ¬ c.group.Sits j q key' (some v')
  /-- The call is not complete yet. -/
  incomplete : ∀ w key' v', ¬ c.group.Sits w p key' (some v')
  together : ∀ w q, c.group.Sits w q key none → q = p
  asked : ∀ w key', c.group.Sits w p key' none → key' = key

/-- What a step from `c` to `c'` can do. -/
inductive Stepped (c : Crowd τ) (e : Move τ) (c' : Crowd τ) : Prop where
  /-- Nobody returns and no call is completed. -/
  | quiet (hreturned : ∀ w key v shared, c'.Returned w key v shared ↔ c.Returned w key v shared)
      (hsits : ∀ w p key v, c'.group.Sits w p key (some v) ↔
        e ≠ .drop w ∧ c.group.Sits w p key (some v))
      (hpoll : ∀ w p key v, e = .poll w → ¬ c.group.Sits w p key (some v))
      (hends : ∀ j v, e = .poll j → ¬ c.Ends j v)
  /-- The run of a caller ends. -/
  | ended (j : Caller) (p : Nat) (key : String) (v : τ) (he : e = .poll j)
      (hlanding : Landing c c' j p key v)
  /-- A caller collects the output of the complete call that it is inside. -/
  | collected (i : Caller) (p : Nat) (key : String) (v : τ) (he : e = .poll i)
      (hi : c.group.Sits i p key (some v))
      (hreturned : ∀ w key' v' shared, c'.Returned w key' v' shared ↔
        (w = i ∧ key' = key ∧ v' = v ∧ shared = true) ∨ c.Returned w key' v' shared)
      (hsits : ∀ w q key' v', c'.group.Sits w q key' (some v') ↔
        w ≠ i ∧ c.group.Sits w q key' (some v'))
      (hends : ∀ j v, e = .poll j → ¬ c.Ends j v)

/-- A step keeps the invariant, seats only the caller that is polled, and does what `Stepped`
says. -/
structure Passed (c : Crowd τ) (e : Move τ) (c' : Crowd τ) : Prop where
  orderly : c'.Orderly
  seats : ∀ w p key output, c'.group.Sits w p key output →
    e = .poll w ∨ ∃ output', c.group.Sits w p key output'
  stepped : Stepped c e c'

section Returned

variable {c c' : Crowd τ} {i w : Caller} {m : Member τ} {key : String} {v : τ} {shared : Bool}

/-- Who has returned when a live caller is dropped. -/
lemma returned_dropped (hm : c.members[i]? = some m) (hlive : m.stage = .live)
    (hmembers : c'.members = (c.setStage i .dropped).members) :
    c'.Returned w key v shared ↔ c.Returned w key v shared := by
  unfold Returned
  rw [hmembers, members_setStage]
  by_cases hw : w = i
  · subst hw
    rw [if_pos rfl, hm]
    simp [hlive]
  · rw [if_neg hw]

/-- Who has returned when a live caller returns. -/
lemma returned_deliver (hm : c.members[i]? = some m) (hlive : m.stage = .live) {output : τ}
    {share : Bool} (hmembers : c'.members = (c.setStage i (.returned output share)).members) :
    c'.Returned w key v shared ↔
      (w = i ∧ key = m.key ∧ v = output ∧ shared = share) ∨ c.Returned w key v shared := by
  unfold Returned
  rw [hmembers, members_setStage]
  by_cases hw : w = i
  · subst hw
    rw [if_pos rfl, hm]
    simp [hlive, eq_comm]
  · rw [if_neg hw]
    simp [hw]

/-- Results do not change who has returned. -/
lemma returned_supply (output : τ) :
    (c.supply i output).Returned w key v shared ↔ c.Returned w key v shared := by
  unfold Returned
  rw [members_supply]
  cases hm : c.members[w]? with
  | none => simp
  | some m => by_cases hw : w = i <;> simp [hw]

/-- A caller that comes has not returned. -/
lemma returned_add (result : Option τ) {key' : String} :
    (c.add key' result).Returned w key v shared ↔ c.Returned w key v shared := by
  unfold Returned
  rw [members_add]
  by_cases hw : w = c.members.length
  · rw [if_pos hw, List.getElem?_eq_none (Nat.le_of_eq hw.symm)]
    simp
  · rw [if_neg hw]

end Returned

/-- A caller that is still live after its poll has not ended its run. -/
lemma not_ends_of_live {c : Crowd τ} {i : Caller} (hlive : (c.poll i).isLive i = true) (v : τ) :
    ¬ c.Ends i v := by
  rintro ⟨-, -, -, -, -, hdead⟩
  exact Bool.false_ne_true (hdead.symm.trans hlive)

/-- A live caller whose poll delivers the output of its own run has ended its run. -/
lemma ends_of_poll {c c₂ : Crowd τ} {i : Caller} {m : Member τ} {v : τ} {g : Group τ}
    (hm : c.members[i]? = some m) (hlive : m.stage = .live) (hresult : m.result = some v)
    (hran : i ∈ c₂.ran) (hpoll : c.poll i = { c₂ with group := g }.deliver i v false) :
    c.Ends i v := by
  refine ⟨m, hm, hlive, hresult, hpoll ▸ hran, ?_⟩
  rw [hpoll, ← Bool.not_eq_true, isLive_iff]
  rintro ⟨m', hm', hlive'⟩
  have hm' : (c₂.setStage i (.returned v false)).members[i]? = some m' := hm'
  rw [members_setStage, if_pos rfl] at hm'
  obtain ⟨m₀, -, hstage'⟩ := Option.map_eq_some_iff.mp hm'
  rw [← hstage'] at hlive'
  cases hlive'

/-- What the poll of a live caller does. -/
lemma poll_live {c : Crowd τ} {i : Caller} {m : Member τ} (hm : c.members[i]? = some m)
    (hlive : m.stage = .live) :
    c.poll i =
      let c₁ := { c with group := c.group.join i m.key }
      match c₁.group.turn i with
      | .outside => c₁
      | .wait => c₁
      | .start => { c₁ with group := c₁.group.start i, ran := c₁.ran ++ [i] }.complete i m
      | .running => c₁.complete i m
      | .collect output => { c₁ with group := c₁.group.leave i }.deliver i output true := by
  unfold Crowd.poll
  rw [hm]
  obtain ⟨key, stage, result⟩ := m
  obtain rfl : stage = .live := hlive
  rfl

/-- What the poll of anybody else does. -/
lemma poll_other {c : Crowd τ} {i : Caller}
    (hnot : ∀ m, c.members[i]? = some m → m.stage ≠ .live) : c.poll i = c := by
  unfold Crowd.poll
  cases hm : c.members[i]? with
  | none => rfl
  | some m =>
    cases hs : m.stage with
    | live => exact absurd hs (hnot m hm)
    | returned output shared => simp only [hs]
    | dropped => simp only [hs]

namespace Orderly

variable {c c₁ c₂ : Crowd τ} {i : Caller} {m : Member τ} {p : Nat} {key : String}

/-- A caller that nobody knows, or that has come to its end, sits nowhere. -/
lemma not_sits (h : c.Orderly) (hnot : ∀ m, c.members[i]? = some m → m.stage ≠ .live)
    {output : Option τ} : ¬ c.group.Sits i p key output := by
  intro hi
  obtain ⟨m, hm, hlive, -⟩ := h.seated i p key output hi
  exact hnot m hm hlive

/-- Joining keeps every seat, and gives one to nobody but the caller that joins. -/
lemma sits_join (h : c.Orderly) (hm : c.members[i]? = some m) :
    (∀ w q key' output, c.group.Sits w q key' output →
      (c.group.join i m.key).Sits w q key' output) ∧
    (∀ w, w ≠ i → ∀ q key' output, (c.group.join i m.key).Sits w q key' output →
      c.group.Sits w q key' output) ∧
    ∃ p output, (c.group.join i m.key).Sits i p m.key output ∧
      (output = none ∨ c.group.Sits i p m.key output) := by
  have hkey : ∀ p key' output, c.group.Sits i p key' output → key' = m.key := by
    intro p key' output hi
    obtain ⟨m', hm', -, hk⟩ := h.seated i p key' output hi
    obtain rfl : m = m' := Option.some.inj (hm.symm.trans hm')
    exact hk.symm
  obtain ⟨hothers, p, output, hi, hcase⟩ := h.group.sits_join hkey
  refine ⟨?_, fun w hw q key' output => (hothers w hw q key' output).mp, p, output, hi, hcase⟩
  intro w q key' output hs
  by_cases hw : w = i
  · subst hw
    obtain ⟨d, hd, hrest⟩ := hs
    rw [h.group.join_of_seated hd]
    exact ⟨d, hd, hrest⟩
  · exact (hothers w hw q key' output).mpr hs

/-- **A run ends.** When the head of the line of a call lands, it returns its output, and whoever
else is inside can collect it.

**Proof sketch.** `c` is the crowd before the poll; `c₂` has the same members, with the caller
inside its call and its run begun. Landing moves the output into the call and empties the seat of
the caller. -/
lemma land_stepped (h₂ : c₂.Orderly) (hm : c.members[i]? = some m) (hlive : m.stage = .live)
    {v : τ} (hresult : m.result = some v) (hmembers : c₂.members = c.members) (hran : i ∈ c₂.ran)
    {call : Call τ} (hcall : c₂.group.calls[p]? = some call) (hhead : call.line.head? = some i)
    (hout : call.output = none) (hk : call.key = m.key)
    (hkeep : ∀ w q key' output, c.group.Sits w q key' output → c₂.group.Sits w q key' output)
    (hback : ∀ w, w ≠ i → ∀ q key' output, c₂.group.Sits w q key' output →
      c.group.Sits w q key' output)
    (hpoll : c.poll i = { c₂ with group := c₂.group.land i v }.deliver i v false) :
    Passed c (.poll i) (c.poll i) := by
  have hseat : c₂.group.Seated i p call := ⟨hcall, List.mem_of_head? hhead⟩
  have hi : c₂.group.Sits i p m.key none := ⟨call, hseat, hk, hout⟩
  have hself : ∀ q key' v', ¬ c.group.Sits i q key' (some v') := by
    intro q key' v' hs
    obtain ⟨-, -, hno⟩ := h₂.group.sits_unique hi (hkeep i q key' _ hs)
    cases hno
  have hstage : (Stage.returned v false : Stage τ) ≠ .live := by simp
  have hseats : ∀ w q key' output, (c.poll i).group.Sits w q key' output →
      w ≠ i ∧ ∃ output', c₂.group.Sits w q key' output' := by
    intro w q key' output hw
    rw [hpoll] at hw
    obtain ⟨hwi, hw⟩ := (h₂.group.sits_land hi v).mp hw
    refine ⟨hwi, ?_⟩
    by_cases hq : q = p
    · subst hq
      rw [if_pos rfl] at hw
      exact ⟨none, hw.1⟩
    · rw [if_neg hq] at hw
      exact ⟨output, hw⟩
  have horderly : (c.poll i).Orderly := by
    rw [hpoll] at hseats ⊢
    exact h₂.depart hstage rfl rfl (h₂.group.land hseat hout v).1 hseats
      fun w => h₂.group.runs_land hcall hhead hout v
  have hends : c.Ends i v := ends_of_poll hm hlive hresult hran hpoll
  have hopen : ∀ w key' v', ¬ c.group.Sits w p key' (some v') := by
    intro w key' v' hs
    have hhere := (Group.sits_here_iff hcall).mp (hkeep w p key' _ hs)
    cases hout.symm.trans hhere.2.2
  refine ⟨horderly, ?_, .ended i p m.key v rfl
    ⟨hends, ⟨m, hm, rfl⟩, ?_, ?_, hself, hopen, ?_, ?_⟩⟩
  · intro w q key' output hw
    obtain ⟨hwi, output', hw⟩ := hseats w q key' output hw
    exact .inr ⟨output', hback w hwi q key' output' hw⟩
  · intro w key' v' shared
    have hm₂ : c₂.members[i]? = some m := hmembers ▸ hm
    have hdeliver : (c.poll i).Returned w key' v' shared ↔
        (w = i ∧ key' = m.key ∧ v' = v ∧ shared = false) ∨ c₂.Returned w key' v' shared := by
      rw [hpoll]
      exact returned_deliver hm₂ hlive rfl
    rw [hdeliver]
    simp only [Returned, hmembers]
  · intro w q key' v'
    have hland : (c.poll i).group.Sits w q key' (some v') ↔
        w ≠ i ∧ if q = p then c₂.group.Sits w p key' none ∧ some v' = some v
          else c₂.group.Sits w q key' (some v') := by
      rw [hpoll]
      exact h₂.group.sits_land hi v
    rw [hland]
    by_cases hq : q = p
    · subst hq
      rw [if_pos rfl]
      constructor
      · rintro ⟨hw, hs, hv⟩
        exact .inl ⟨hw, rfl, Option.some.inj hv, hback w hw q key' none hs⟩
      · rintro (⟨hw, -, rfl, hs⟩ | hs)
        · exact ⟨hw, hkeep w q key' none hs, rfl⟩
        · exact absurd hs (hopen w key' v')
    · rw [if_neg hq]
      constructor
      · rintro ⟨hw, hs⟩
        exact .inr (hback w hw q key' _ hs)
      · rintro (⟨-, rfl, -⟩ | hs)
        · exact absurd rfl hq
        · refine ⟨?_, hkeep w q key' _ hs⟩
          rintro rfl
          exact hself q key' v' hs
  · intro w q hs
    exact (h₂.group.sits_together hi (hkeep w q m.key none hs)).symm
  · intro w key' hs
    exact ((Group.sits_here_iff hcall).mp (hkeep w p key' none hs)).2.1.symm.trans hk

/-- **An output is collected.** A caller inside a complete call returns its output. -/
lemma collect_stepped (h : c.Orderly) (h₁ : c₁.Orderly) (hm : c.members[i]? = some m)
    (hlive : m.stage = .live) {v : τ} (hmembers : c₁.members = c.members) (hran : c₁.ran = c.ran)
    (hi : c.group.Sits i p m.key (some v))
    (hkeep : ∀ w q key' output, c.group.Sits w q key' output → c₁.group.Sits w q key' output)
    (hback : ∀ w, w ≠ i → ∀ q key' output, c₁.group.Sits w q key' output →
      c.group.Sits w q key' output)
    (hpoll : c.poll i = { c₁ with group := c₁.group.leave i }.deliver i v true) :
    Passed c (.poll i) (c.poll i) := by
  have hstage : (Stage.returned v true : Stage τ) ≠ .live := by simp
  have hseats : ∀ w q key' output, (c.poll i).group.Sits w q key' output →
      w ≠ i ∧ ∃ output', c₁.group.Sits w q key' output' := by
    intro w q key' output hw
    rw [hpoll] at hw
    obtain ⟨hwi, hw⟩ := h₁.group.sits_leave.mp hw
    exact ⟨hwi, output, hw⟩
  have horderly : (c.poll i).Orderly := by
    rw [hpoll] at hseats ⊢
    exact h₁.depart hstage rfl rfl (h₁.group.orderly_leave i) hseats
      fun w => h₁.group.runs_leave
  refine ⟨horderly, ?_, .collected i p m.key v rfl hi ?_ ?_ ?_⟩
  · intro w q key' output hw
    obtain ⟨hwi, output', hw⟩ := hseats w q key' output hw
    exact .inr ⟨output', hback w hwi q key' output' hw⟩
  · intro w key' v' shared
    have hm₁ : c₁.members[i]? = some m := hmembers ▸ hm
    have hdeliver : (c.poll i).Returned w key' v' shared ↔
        (w = i ∧ key' = m.key ∧ v' = v ∧ shared = true) ∨ c₁.Returned w key' v' shared := by
      rw [hpoll]
      exact returned_deliver hm₁ hlive rfl
    rw [hdeliver]
    simp only [Returned, hmembers]
  · intro w q key' v'
    have hleave : (c.poll i).group.Sits w q key' (some v') ↔
        w ≠ i ∧ c₁.group.Sits w q key' (some v') := by
      rw [hpoll]
      exact h₁.group.sits_leave
    rw [hleave]
    exact and_congr_right fun hw => ⟨hback w hw q key' _, hkeep w q key' _⟩
  · rintro j v' heq ⟨m', hm', hlive', -, hmem, -⟩
    obtain rfl : i = j := Move.poll.inj heq
    -- a caller that has begun is inside a call that is not complete
    have hmem : i ∈ c.ran := by
      rw [hpoll] at hmem
      exact hran ▸ hmem
    obtain ⟨q, key', hs⟩ := Group.Orderly.sits_of_runs ((h.ran i m' hm' hlive').mp hmem)
    obtain ⟨-, -, hno⟩ := h.group.sits_unique hi hs
    cases hno

/-- **Nothing is completed.** A caller that joins and goes no further than beginning its run
changes no seat in a complete call. -/
lemma blocked_stepped (h₂ : c₂.Orderly) (hm : c.members[i]? = some m) (hlive : m.stage = .live)
    (hmembers : c₂.members = c.members) (hi : c₂.group.Sits i p m.key none)
    (hkeep : ∀ w q key' output, c.group.Sits w q key' output → c₂.group.Sits w q key' output)
    (hback : ∀ w, w ≠ i → ∀ q key' output, c₂.group.Sits w q key' output →
      c.group.Sits w q key' output)
    (hpoll : c.poll i = c₂) : Passed c (.poll i) (c.poll i) := by
  have hself : ∀ q key' v', ¬ c₂.group.Sits i q key' (some v') := by
    intro q key' v' hs
    obtain ⟨-, -, hno⟩ := h₂.group.sits_unique hi hs
    cases hno
  refine ⟨hpoll ▸ h₂, ?_, .quiet ?_ ?_ ?_ ?_⟩
  · intro w q key' output hw
    rw [hpoll] at hw
    by_cases hwi : w = i
    · exact .inl (congrArg Move.poll hwi.symm)
    · exact .inr ⟨output, hback w hwi q key' output hw⟩
  · intro w key' v shared
    simp only [hpoll, Returned, hmembers]
  · intro w q key' v
    rw [hpoll]
    constructor
    · intro hs
      refine ⟨by simp, hback w ?_ q key' _ hs⟩
      rintro rfl
      exact hself q key' v hs
    · exact fun hs => hkeep w q key' _ hs.2
  · intro w q key' v heq hs
    obtain rfl : i = w := Move.poll.inj heq
    exact hself q key' v (hkeep i q key' _ hs)
  · intro j v heq
    obtain rfl : i = j := Move.poll.inj heq
    refine not_ends_of_live ?_ v
    rw [hpoll, isLive_iff, hmembers]
    exact ⟨m, hm, hlive⟩

/-- A poll leaves a crowd orderly and does what `Stepped` says. -/
theorem poll_stepped (h : c.Orderly) (i : Caller) :
    Passed c (.poll i) (c.poll i) := by
  by_cases hlive : c.isLive i = true
  · obtain ⟨m, hm, hlive⟩ := isLive_iff.mp hlive
    have hpoll := poll_live hm hlive
    have h₁ := h.join hm hlive
    obtain ⟨hkeep, hback, p, output, hi, hcase⟩ := h.sits_join hm
    dsimp only at hpoll
    rcases h₁.group.turn_cases hi with ⟨v, rfl, hturn⟩ | ⟨rfl, hturn, -⟩ |
      ⟨rfl, call, hcall, hhead, hk, hout, hrun⟩
    · rw [hturn] at hpoll
      rcases hcase with hnone | hold
      · cases hnone
      · exact h.collect_stepped h₁ hm hlive rfl rfl hold hkeep hback hpoll
    · rw [hturn] at hpoll
      exact blocked_stepped h₁ hm hlive rfl hi hkeep hback hpoll
    · -- whether the run begins now or has begun before, the caller is at the head and runs
      obtain ⟨c₂, h₂, hmembers, hran, ⟨call₂, hcall₂, hhead₂, hk₂, hout₂⟩, hsits, hpoll⟩ :
          ∃ c₂ : Crowd τ, c₂.Orderly ∧ c₂.members = c.members ∧ i ∈ c₂.ran ∧
            (∃ call₂ : Call τ, c₂.group.calls[p]? = some call₂ ∧ call₂.line.head? = some i ∧
              call₂.key = m.key ∧ call₂.output = none) ∧
            (∀ w q key' output, c₂.group.Sits w q key' output ↔
              (c.group.join i m.key).Sits w q key' output) ∧
            c.poll i = c₂.complete i m := by
        rcases hrun with ⟨hturn, hruns⟩ | ⟨hturn, hruns⟩
        · rw [hturn] at hpoll
          exact ⟨_, h₁, rfl, (h₁.ran i m hm hlive).mpr hruns, ⟨call, hcall, hhead, hk, hout⟩,
            fun _ _ _ _ => Iff.rfl, hpoll⟩
        · rw [hturn] at hpoll
          have hch := (h₁.group.start hcall hhead).2
          exact ⟨_, h₁.start hcall hhead hout hm, rfl, by simp, ⟨_, hch.here, hhead, hk, hout⟩,
            fun _ _ _ _ => h₁.group.sits_start hcall hhead, hpoll⟩
      have hi₂ : c₂.group.Sits i p m.key none := (hsits i p m.key none).mpr hi
      have hkeep₂ : ∀ w q key' output, c.group.Sits w q key' output →
          c₂.group.Sits w q key' output :=
        fun w q key' output hs => (hsits w q key' output).mpr (hkeep w q key' output hs)
      have hback₂ : ∀ w, w ≠ i → ∀ q key' output, c₂.group.Sits w q key' output →
          c.group.Sits w q key' output :=
        fun w hw q key' output hs => hback w hw q key' output ((hsits w q key' output).mp hs)
      cases hresult : m.result with
      | none =>
        rw [complete, hresult] at hpoll
        exact blocked_stepped h₂ hm hlive hmembers hi₂ hkeep₂ hback₂ hpoll
      | some v =>
        rw [complete, hresult] at hpoll
        exact h₂.land_stepped hm hlive hresult hmembers hran hcall₂ hhead₂ hout₂ hk₂ hkeep₂
          hback₂ hpoll
  · have hnot : ∀ m, c.members[i]? = some m → m.stage ≠ .live :=
      fun m hm hs => hlive (isLive_iff.mpr ⟨m, hm, hs⟩)
    rw [poll_other hnot]
    refine ⟨h, fun _ _ _ output hs => .inr ⟨output, hs⟩,
      .quiet (fun _ _ _ _ => Iff.rfl) ?_ ?_ ?_⟩
    · simp
    · intro w p key v heq
      obtain rfl : i = w := Move.poll.inj heq
      exact h.not_sits hnot
    · rintro j v heq ⟨m, hm, hs, -⟩
      obtain rfl : i = j := Move.poll.inj heq
      exact hnot m hm hs

/-- A drop leaves a crowd orderly and does what `Stepped` says. -/
theorem drop_stepped (h : c.Orderly) (i : Caller) : Passed c (.drop i) (c.drop i) := by
  refine ⟨h.drop i, ?_, .quiet ?_ ?_ (by simp) (by simp)⟩ <;> unfold Crowd.drop <;>
    by_cases hlive : c.isLive i = true
  · rw [if_pos hlive]
    exact fun w p key output hs => .inr ⟨output, (h.group.sits_leave.mp hs).2⟩
  · rw [if_neg hlive]
    exact fun w p key output hs => .inr ⟨output, hs⟩
  · rw [if_pos hlive]
    obtain ⟨m, hm, hstage⟩ := isLive_iff.mp hlive
    exact fun w key v shared => returned_dropped hm hstage rfl
  · rw [if_neg hlive]
    exact fun w key v shared => Iff.rfl
  · rw [if_pos hlive]
    intro w p key v
    refine h.group.sits_leave.trans (and_congr_left fun _ => ?_)
    simp [eq_comm]
  · rw [if_neg hlive]
    intro w p key v
    constructor
    · intro hs
      refine ⟨?_, hs⟩
      intro heq
      obtain rfl : i = w := Move.drop.inj heq
      obtain ⟨m, hm, hstage, -⟩ := h.seated i p key _ hs
      exact hlive (isLive_iff.mpr ⟨m, hm, hstage⟩)
    · exact fun hs => hs.2

/-- **Every step** leaves a crowd orderly and does what `Stepped` says. -/
theorem step (h : c.Orderly) (e : Move τ) : Passed c e (c.step e) := by
  cases e with
  | poll i => exact h.poll_stepped i
  | drop i => exact h.drop_stepped i
  | add key result =>
    refine ⟨h.add key result, fun _ _ _ output hs => .inr ⟨output, hs⟩, .quiet ?_ ?_ ?_ ?_⟩
    · exact fun w key' v shared => returned_add result
    · intro w p key' v
      simp [Crowd.step, Crowd.add]
    · simp
    · simp
  | supply i output =>
    refine ⟨h.supply i output, fun _ _ _ output hs => .inr ⟨output, hs⟩, .quiet ?_ ?_ ?_ ?_⟩
    · exact fun w key v shared => returned_supply output
    · intro w p key v
      simp [Crowd.step, Crowd.supply]
    · simp
    · simp

end Orderly

/-- **Every history** leaves a crowd orderly. -/
theorem orderly_after (moves : List (Move τ)) : (after moves).Orderly := by
  induction moves using List.reverseRecOn with
  | nil => exact orderly_empty
  | append_singleton moves e ih =>
    rw [after_snoc]
    exact (ih.step e).orderly

/-- **One run for each key.** Of the callers of a key, one at most is live with its run begun. -/
theorem Orderly.alone {c : Crowd τ} (h : c.Orderly) {i j : Caller} {m n : Member τ}
    (hm : c.members[i]? = some m) (hn : c.members[j]? = some n) (hmlive : m.stage = .live)
    (hnlive : n.stage = .live) (hi : i ∈ c.ran) (hj : j ∈ c.ran) (hkey : m.key = n.key) :
    i = j := by
  obtain ⟨p, d, hd⟩ := (h.ran i m hm hmlive).mp hi
  obtain ⟨q, e, he⟩ := (h.ran j n hn hnlive).mp hj
  obtain ⟨m', hm', -, hk⟩ := h.seated i p d.key d.output ⟨d, hd.seated, rfl, rfl⟩
  obtain ⟨n', hn', -, hk'⟩ := h.seated j q e.key e.output ⟨e, he.seated, rfl, rfl⟩
  obtain rfl : m = m' := Option.some.inj (hm.symm.trans hm')
  obtain rfl : n = n' := Option.some.inj (hn.symm.trans hn')
  exact h.group.conductor_unique hd he (hk.symm.trans (hkey.trans hk'))

end Crowd

end LayeredCache.Flight
