import LayeredCache.Proofs.Flight.Deserted

/-!
# Callers that wait are served

A caller that waits inside a call waits for somebody: the head of the line is live, and either its
run has begun or it begins at its next poll. This stays so whoever is dropped in between, because
the permit goes on to the next in line and a call with callers inside stays in the table. New
callers of the key therefore come into the same call.

## Main definitions

* `Flight.Crowd.Pends` — a live caller is inside an open call and has not begun its run.
* `Flight.Crowd.Begins` — a live caller holds the permit and begins its run at its next poll.
* `Flight.Crowd.Tended` — somebody runs or is about to, and new callers come into the call.
* `Flight.Crowd.Furthers` — a step changes the stage of one live caller at most.

## Main results

* `Flight.Crowd.Orderly.tended` — an open call with a caller inside is tended.
* `Flight.Crowd.Orderly.stays_step`, `Flight.stays_after` — a caller stays in its call as long as
  it is live.
* `Flight.never_stranded` — both, after every history.
-/

set_option autoImplicit false

namespace LayeredCache.Flight

variable {τ : Type}

namespace Crowd

/-- A live caller is inside the call of a key at a place, which is not complete, and has not begun
its run. -/
def Pends (c : Crowd τ) (i : Caller) (p : Nat) (key : String) : Prop :=
  c.isLive i = true ∧ i ∉ c.ran ∧ c.group.Sits i p key none

/-- A caller that has not begun its run holds the permit of its call: at its next poll its run
begins. -/
def Begins (c : Crowd τ) (i : Caller) : Prop :=
  c.group.turn i = .start ∧ (c.poll i).ran = c.ran ++ [i]

/-- The call of a key at a place goes on: it has a live caller that runs or is about to run, and
it is the one that new callers come into. -/
structure Tended (c : Crowd τ) (p : Nat) (key : String) : Prop where
  permit : ∃ j, c.isLive j = true ∧ c.group.Sits j p key none ∧
    (j ∈ c.ran ∨ c.Pends j p key ∧ c.Begins j)
  entry : c.group.current.lookup key = some p
  /-- A live caller of the key that is in no call waits in this one after its next poll; no run
  begins, and no other call is opened. -/
  joined : ∀ w, c.Asks w key → c.isLive w = true → (∀ q k output, ¬ c.group.Sits w q k output) →
    (c.poll w).Pends w p key ∧ (c.poll w).ran = c.ran ∧
      (c.poll w).group.inFlight = c.group.inFlight

end Crowd

/-! ## Who holds the permit -/

namespace Group

variable {g : Group τ} {i : Caller} {p : Nat} {key : String}

/-- A caller in no call that joins a key with an entry goes to the end of the line there. -/
lemma join_of_lookup (hi : g.seat? i = none) (hlook : g.current.lookup key = some p) :
    g.join i key = g.update p fun c => { c with line := c.line ++ [i] } := by
  simp only [join, hi, Option.isSome_none, Bool.false_eq_true, if_false, enter, hlook]

/-- A caller that joins a line behind others waits. -/
lemma Orderly.turn_join (h : g.Orderly) {w : Caller} (hw : g.Sits w p key none)
    (hi : g.seat? i = none) : (g.join i key).turn i = .wait := by
  obtain ⟨c, hc, rfl, hout⟩ := hw
  have hlook := h.opened p c hc.1 hout (List.ne_nil_of_mem hc.2)
  have hcall : (g.join i c.key).calls[p]? = some { c with line := c.line ++ [i] } := by
    rw [join_of_lookup hi hlook, update, List.getElem?_modify_eq, hc.1]
    rfl
  have hhead : (c.line ++ [i]).head? ≠ some i := by
    rw [List.head?_append_of_ne_nil _ (List.ne_nil_of_mem hc.2)]
    intro hfirst
    exact h.not_seated hi ⟨hc.1, List.mem_of_head? hfirst⟩
  exact (h.orderly_join i c.key).turn_wait ⟨hcall, by simp⟩ hhead hout

/-- The permit of an open call with a caller inside is held. -/
lemma exists_head (hi : g.Sits i p key none) :
    ∃ j c, g.calls[p]? = some c ∧ c.line.head? = some j ∧ c.key = key ∧ c.output = none := by
  obtain ⟨c, hc, hk, hout⟩ := hi
  cases hline : c.line with
  | nil => exact absurd hline (List.ne_nil_of_mem hc.2)
  | cons j rest => exact ⟨j, c, hc.1, by rw [hline]; rfl, hk, hout⟩

end Group

namespace Crowd

variable {c : Crowd τ} {i j : Caller} {m : Member τ} {p : Nat} {key : String} {output : Option τ}

/-- A run that ends begins no run. -/
@[simp] lemma ran_complete (c : Crowd τ) (i : Caller) (m : Member τ) :
    (c.complete i m).ran = c.ran := by
  unfold complete
  cases m.result <;> rfl

namespace Orderly

/-- Whoever is inside a call is live. -/
lemma live_of_sits (h : c.Orderly) (hi : c.group.Sits i p key output) : c.isLive i = true := by
  obtain ⟨m, hm, hlive, -⟩ := h.seated i p key output hi
  exact isLive_iff.mpr ⟨m, hm, hlive⟩

/-- A caller that may begin its run begins it at its next poll. -/
lemma ran_poll_of_start (h : c.Orderly) (hi : c.group.Sits i p key output)
    (hturn : c.group.turn i = .start) : (c.poll i).ran = c.ran ++ [i] := by
  obtain ⟨m, hm, hlive⟩ := isLive_iff.mp (h.live_of_sits hi)
  have hpoll := poll_live hm hlive
  obtain ⟨d, hd, -⟩ := hi
  simp only [h.group.join_of_seated hd, hturn] at hpoll
  rw [hpoll, ran_complete]

/-- **The head of the line** of an open call is live, and has begun its run or begins it at its
next poll. -/
lemma permit (h : c.Orderly) (hi : c.group.Sits i p key none) :
    ∃ j, c.isLive j = true ∧ c.group.Sits j p key none ∧
      (j ∈ c.ran ∨ c.Pends j p key ∧ c.Begins j) := by
  obtain ⟨j, call, hcall, hhead, hk, hout⟩ := Group.exists_head hi
  have hseat : c.group.Seated j p call := ⟨hcall, List.mem_of_head? hhead⟩
  have hj : c.group.Sits j p key none := ⟨call, hseat, hk, hout⟩
  have hlive := h.live_of_sits hj
  obtain ⟨m, hm, hstage⟩ := isLive_iff.mp hlive
  refine ⟨j, hlive, hj, ?_⟩
  cases hrun : call.running with
  | true => exact .inl ((h.ran j m hm hstage).mpr ⟨p, call, hcall, hhead, hrun, hout⟩)
  | false =>
    have hturn := h.group.turn_start hcall hhead hrun hout
    have hnot : j ∉ c.ran := by
      intro hran
      obtain ⟨q, d, hd⟩ := (h.ran j m hm hstage).mp hran
      obtain ⟨-, rfl⟩ := h.group.seated_unique hseat hd.seated
      exact Bool.false_ne_true (hrun.symm.trans hd.2.2.1)
    exact .inr ⟨⟨hlive, hnot, hj⟩, hturn, h.ran_poll_of_start hj hturn⟩

/-- **A new caller** of a key with an open call waits in that call after its next poll. -/
lemma joined (h : c.Orderly) (hi : c.group.Sits i p key none) {w : Caller} (hasks : c.Asks w key)
    (hlive : c.isLive w = true) (hnew : ∀ q k output, ¬ c.group.Sits w q k output) :
    (c.poll w).Pends w p key ∧ (c.poll w).ran = c.ran ∧
      (c.poll w).group.inFlight = c.group.inFlight := by
  obtain ⟨m, hm, rfl⟩ := hasks
  obtain ⟨m', hm', hstage⟩ := isLive_iff.mp hlive
  obtain rfl : m = m' := Option.some.inj (hm.symm.trans hm')
  have hseat : c.group.seat? w = none := by
    cases hs : c.group.seat? w with
    | none => rfl
    | some q =>
      obtain ⟨d, hd⟩ := Group.seated_of_seat hs
      exact absurd ⟨d, hd, rfl, rfl⟩ (hnew q d.key d.output)
  -- the new caller is in the same call as the one that was there, and it is not the head
  have hpoll := poll_live hm hstage
  simp only [h.group.turn_join hi hseat] at hpoll
  obtain ⟨hkeep, -, q, output, hw, hout⟩ := h.sits_join hm
  obtain rfl : output = none := hout.resolve_right (hnew q m.key output)
  obtain rfl := (h.join hm hstage).group.sits_together (hkeep i p m.key none hi) hw
  have hnot : w ∉ c.ran := by
    intro hran
    obtain ⟨q, k, hs⟩ := Group.Orderly.sits_of_runs ((h.ran w m hm hstage).mp hran)
    exact hnew q k none hs
  rw [hpoll]
  refine ⟨⟨isLive_iff.mpr ⟨m, hm, hstage⟩, hnot, hw⟩, rfl, ?_⟩
  show (c.group.join w m.key).inFlight = c.group.inFlight
  rw [Group.join_of_lookup hseat (h.group.lookup_of_sits hi)]
  rfl

/-- **An open call with a caller inside** is tended. -/
theorem tended (h : c.Orderly) (hi : c.group.Sits i p key none) : c.Tended p key where
  permit := h.permit hi
  entry := h.group.lookup_of_sits hi
  joined _ hasks hlive hnew := h.joined hi hasks hlive hnew

/-! ## Seats are kept -/

/-- A caller that has returned is not live. -/
lemma not_live_deliver (c : Crowd τ) (i : Caller) (v : τ) (shared : Bool) :
    (c.deliver i v shared).isLive i ≠ true := by
  rw [ne_eq, isLive_iff]
  rintro ⟨m, hm, hlive⟩
  have hm : (c.setStage i (.returned v shared)).members[i]? = some m := hm
  rw [members_setStage, if_pos rfl] at hm
  obtain ⟨m', -, rfl⟩ := Option.map_eq_some_iff.mp hm
  cases hlive

/-- When a run ends, the others stay in their calls. -/
lemma stays_complete (h : c.Orderly) {q : Nat} {k : String} (hj : c.group.Sits j q k none)
    (hi : c.group.Sits i p key output) (hlive : (c.complete j m).isLive i = true) :
    ∃ output', (c.complete j m).group.Sits i p key output' := by
  unfold complete at hlive ⊢
  cases hresult : m.result with
  | none => exact ⟨output, hi⟩
  | some v =>
    simp only [hresult] at hlive
    have hne : i ≠ j := by
      rintro rfl
      exact not_live_deliver _ i v false hlive
    by_cases hp : p = q
    · subst hp
      obtain ⟨d, hd, -, hout⟩ := hj
      obtain ⟨hmem, hk, -⟩ := (Group.sits_here_iff hd.1).mp hi
      exact ⟨some v, (h.group.sits_land ⟨d, hd, rfl, hout⟩ v).mpr
        ⟨hne, by rw [if_pos rfl]; exact ⟨⟨d, ⟨hd.1, hmem⟩, hk, hout⟩, rfl⟩⟩⟩
    · exact ⟨output, (h.group.sits_land hj v).mpr ⟨hne, by rw [if_neg hp]; exact hi⟩⟩

/-- A poll leaves every caller in its call that is still live afterwards. -/
lemma stays_poll (h : c.Orderly) (j : Caller) (hi : c.group.Sits i p key output)
    (hlive : (c.poll j).isLive i = true) :
    ∃ output', (c.poll j).group.Sits i p key output' := by
  by_cases hj : c.isLive j = true
  · obtain ⟨m, hm, hstage⟩ := isLive_iff.mp hj
    have hpoll := poll_live hm hstage
    have h₁ := h.join hm hstage
    obtain ⟨hkeep, -, q, out, hw, -⟩ := h.sits_join hm
    have hi₁ := hkeep i p key output hi
    dsimp only at hpoll
    rcases h₁.group.turn_cases hw with ⟨v, rfl, hturn⟩ | ⟨rfl, hturn, -⟩ |
      ⟨rfl, call, hcall, hhead, -, hout, ⟨hturn, -⟩ | ⟨hturn, -⟩⟩
    · rw [hturn] at hpoll
      rw [hpoll] at hlive ⊢
      have hne : i ≠ j := by
        rintro rfl
        exact not_live_deliver _ i v true hlive
      exact ⟨output, h₁.group.sits_leave.mpr ⟨hne, hi₁⟩⟩
    · rw [hturn] at hpoll
      rw [hpoll]
      exact ⟨output, hi₁⟩
    · rw [hturn] at hpoll
      rw [hpoll] at hlive ⊢
      exact h₁.stays_complete hw hi₁ hlive
    · rw [hturn] at hpoll
      rw [hpoll] at hlive ⊢
      have h₂ := h₁.start hcall hhead hout hm
      exact h₂.stays_complete ((h₁.group.sits_start hcall hhead).mpr hw)
        ((h₁.group.sits_start hcall hhead).mpr hi₁) hlive
  · rw [poll_other fun m hm hs => hj (isLive_iff.mpr ⟨m, hm, hs⟩)]
    exact ⟨output, hi⟩

/-- **A step** leaves every caller in its call that is still live afterwards. -/
lemma stays_step (h : c.Orderly) (e : Move τ) (hi : c.group.Sits i p key output)
    (hlive : (c.step e).isLive i = true) : ∃ output', (c.step e).group.Sits i p key output' := by
  cases e with
  | add k result => exact ⟨output, hi⟩
  | supply j v => exact ⟨output, hi⟩
  | poll j => exact h.stays_poll j hi hlive
  | drop j =>
    unfold Crowd.step Crowd.drop at hlive ⊢
    by_cases hj : c.isLive j = true
    · simp only [if_pos hj] at hlive ⊢
      refine ⟨output, h.group.sits_leave.mpr ⟨?_, hi⟩⟩
      rintro rfl
      obtain ⟨m, hm, hstage⟩ := isLive_iff.mp hlive
      have hm : (c.setStage i .dropped).members[i]? = some m := hm
      rw [members_setStage, if_pos rfl] at hm
      obtain ⟨m', -, rfl⟩ := Option.map_eq_some_iff.mp hm
      cases hstage
    · simp only [if_neg hj]
      exact ⟨output, hi⟩

end Orderly

/-! ## Whole histories -/

/-- The members of `c'` are those of `c`, of which a live one, `j`, may have come further. -/
def Furthers (j : Caller) (c c' : Crowd τ) : Prop :=
  c'.members = c.members ∨
    c.isLive j = true ∧ ∃ stage, c'.members = (c.setStage j stage).members

namespace Furthers

variable {c' : Crowd τ}

/-- Whoever is live afterwards was live before. -/
lemma live (h : c.Furthers j c') (hlive : c'.isLive i = true) : c.isLive i = true := by
  rw [isLive_iff] at hlive
  rcases h with hmembers | ⟨hj, stage, hmembers⟩
  · rw [hmembers] at hlive
    exact isLive_iff.mpr hlive
  · by_cases hij : i = j
    · exact hij ▸ hj
    · rw [hmembers, members_setStage, if_neg hij] at hlive
      exact isLive_iff.mpr hlive

/-- The number of members stays the same. -/
lemma length (h : c.Furthers j c') : c'.members.length = c.members.length := by
  rcases h with hmembers | ⟨-, stage, hmembers⟩
  · rw [hmembers]
  · rw [hmembers, setStage, List.length_modify]

end Furthers

/-- A poll furthers the caller that is polled at most. -/
lemma furthers_poll (c : Crowd τ) (j : Caller) : c.Furthers j (c.poll j) := by
  by_cases hlive : c.isLive j = true
  · obtain ⟨m, hm, hstage⟩ := isLive_iff.mp hlive
    have hcomplete : ∀ c' : Crowd τ, c'.members = c.members → c.Furthers j (c'.complete j m) := by
      intro c' hmembers
      unfold complete
      cases m.result with
      | none => exact .inl hmembers
      | some v => exact .inr ⟨hlive, .returned v false, by simp only [deliver, setStage, hmembers]⟩
    rw [poll_live hm hstage]
    dsimp only
    split
    · exact .inl rfl
    · exact .inl rfl
    · exact hcomplete _ rfl
    · exact hcomplete _ rfl
    · exact .inr ⟨hlive, .returned _ true, rfl⟩
  · rw [poll_other fun m hm hs => hlive (isLive_iff.mpr ⟨m, hm, hs⟩)]
    exact .inl rfl

/-- A drop furthers the caller that is dropped at most. -/
lemma furthers_drop (c : Crowd τ) (j : Caller) : c.Furthers j (c.drop j) := by
  unfold Crowd.drop
  by_cases hlive : c.isLive j = true
  · rw [if_pos hlive]
    exact .inr ⟨hlive, .dropped, rfl⟩
  · rw [if_neg hlive]
    exact .inl rfl

/-- Callers that are known stay known, and those that are not live do not become live. -/
lemma live_of_step (c : Crowd τ) (e : Move τ) (hknown : i < c.members.length) :
    i < (c.step e).members.length ∧ ((c.step e).isLive i = true → c.isLive i = true) := by
  cases e with
  | add key result =>
    have hlength : (c.add key result).members.length = c.members.length + 1 := by
      simp only [Crowd.add, List.length_append, List.length_singleton]
    refine ⟨hlength ▸ Nat.lt_succ_of_lt hknown, fun hlive => ?_⟩
    obtain ⟨m, hm, hstage⟩ := isLive_iff.mp hlive
    have hm : (c.add key result).members[i]? = some m := hm
    rw [members_add, if_neg (Nat.ne_of_lt hknown)] at hm
    exact isLive_iff.mpr ⟨m, hm, hstage⟩
  | supply j v =>
    refine ⟨by simpa only [Crowd.step, Crowd.supply, List.length_modify] using hknown, ?_⟩
    intro hlive
    obtain ⟨m', hm', hstage⟩ := isLive_iff.mp hlive
    obtain ⟨m, hm, rfl⟩ := Option.map_eq_some_iff.mp ((members_supply c j v i).symm.trans hm')
    refine isLive_iff.mpr ⟨m, hm, ?_⟩
    split at hstage <;> exact hstage
  | poll j => exact ⟨(c.furthers_poll j).length ▸ hknown, (c.furthers_poll j).live⟩
  | drop j => exact ⟨(c.furthers_drop j).length ▸ hknown, (c.furthers_drop j).live⟩

end Crowd

open Crowd

/-- Once a caller is known, it is known for good, and was live before whenever it is live. -/
lemma live_of_after (moves post : List (Move τ)) {i : Caller}
    (hknown : i < (after moves).members.length) :
    i < (after (moves ++ post)).members.length ∧
      ((after (moves ++ post)).isLive i = true → (after moves).isLive i = true) := by
  induction post using List.reverseRecOn with
  | nil => simpa using hknown
  | append_singleton post e ih =>
    rw [← List.append_assoc, after_snoc]
    obtain ⟨hlt, hback⟩ := (after (moves ++ post)).live_of_step e ih.1
    exact ⟨hlt, fun hlive => ih.2 (hback hlive)⟩

/-- **A caller stays** in its call for as long as it is live, whatever happens. -/
lemma stays_after (moves post : List (Move τ)) {i : Caller} {p : Nat} {key : String}
    (hi : (after moves).group.Sits i p key none)
    (hlive : (after (moves ++ post)).isLive i = true) :
    ∃ output, (after (moves ++ post)).group.Sits i p key output := by
  obtain ⟨m, hm, -⟩ := (orderly_after moves).seated i p key none hi
  have hknown := (List.getElem?_eq_some_iff.mp hm).1
  induction post using List.reverseRecOn with
  | nil => exact ⟨none, by simpa using hi⟩
  | append_singleton post e ih =>
    rw [← List.append_assoc, after_snoc] at hlive ⊢
    have hbefore := (live_of_after moves post hknown).1
    obtain ⟨output, hs⟩ := ih (((after (moves ++ post)).live_of_step e hbefore).2 hlive)
    exact (orderly_after (moves ++ post)).stays_step e hs hlive

/-- **Waiters are never stranded.** After every history, while a live caller waits inside a call
that is not complete, somebody in that call is live and runs, or is live and waits with the permit
and begins its run at its next poll. The entry of the key leads to that call, so a new caller comes
into it and begins no run. Whatever happens next, as long as the caller is live it is inside that
call, and if the call is not complete by then all of this still holds.

**Proof sketch.** The permit belongs to the head of the line, and whoever leaves passes it on. A
call that is not complete leaves the table only with its last caller. -/
theorem never_stranded (moves : List (Move τ)) {i : Caller} {p : Nat} {key : String}
    (h : (after moves).Pends i p key) :
    (after moves).Tended p key ∧
      ∀ post, (after (moves ++ post)).isLive i = true →
        (∃ v, (after (moves ++ post)).group.Sits i p key (some v)) ∨
          (after (moves ++ post)).group.Sits i p key none ∧
            (after (moves ++ post)).Tended p key := by
  refine ⟨(orderly_after moves).tended h.2.2, fun post hlive => ?_⟩
  obtain ⟨output, hs⟩ := stays_after moves post h.2.2 hlive
  cases output with
  | none => exact .inr ⟨hs, (orderly_after (moves ++ post)).tended hs⟩
  | some v => exact .inl ⟨v, hs⟩

/-- Two callers wait while a third one runs and is dropped, and so is the first of the two, which
has the permit by then: the other one begins its run at its next poll. -/
theorem never_stranded_passed_on :
    (after [.add "k" (none : Option Unit), .poll 0, .add "k" none, .poll 1, .add "k" none,
      .poll 2, .drop 0, .drop 1]).Pends 2 0 "k" ∧
    (after [.add "k" (none : Option Unit), .poll 0, .add "k" none, .poll 1, .add "k" none,
      .poll 2, .drop 0, .drop 1]).Tended 0 "k" := by
  have hpends : (after [.add "k" (none : Option Unit), .poll 0, .add "k" none, .poll 1,
      .add "k" none, .poll 2, .drop 0, .drop 1]).Pends 2 0 "k" :=
    ⟨by decide, by decide, _, ⟨rfl, by decide⟩, rfl, rfl⟩
  exact ⟨hpends, (never_stranded _ hpends).1⟩

end LayeredCache.Flight
