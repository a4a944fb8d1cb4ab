import LayeredCache.Proofs.Flight.Moves

/-!
# Single flight

Whatever the order in which callers come, are polled and are dropped, a key has at most one run at
a time; whoever returns got the output of a run for its key that ended; whoever waits when a run
ends gets what it gave; and whoever comes after it has ended does not.

Two outputs can be equal although they come from different runs. Where an output came from is
therefore said by a function, `source`, from callers to callers: it is the caller itself when its
own run gave the output.

## Main definitions

* `Flight.SingleFlight` — what holds of a history and the sources of its outputs.
* `Flight.Ledger` — the invariant behind it, which also says whose run completed each call.

## Main results

* `Flight.single_flight` — every history is a single flight.
-/

set_option autoImplicit false

namespace LayeredCache.Flight

variable {τ : Type}

open Crowd

/-! ## The statement -/

/-- A caller waits for a run of a key. -/
def Crowd.Waits (c : Crowd τ) (i : Caller) (key : String) : Prop :=
  ∃ m, c.members[i]? = some m ∧ m.key = key ∧ c.group.turn i = .wait

/-- A caller asks for a key. -/
def Crowd.Asks (c : Crowd τ) (i : Caller) (key : String) : Prop :=
  ∃ m, c.members[i]? = some m ∧ m.key = key

/-- A caller that asked for a key has returned the output of its own run, which ended during a
history. -/
def Gave (moves : List (Move τ)) (j : Caller) (key : String) (v : τ) : Prop :=
  (after moves).Returned j key v false ∧
    ∃ pre post, moves = pre ++ .poll j :: post ∧ (after pre).Ends j v

/-- What single flight means for a history in which every output has a source. -/
structure SingleFlight (moves : List (Move τ)) (source : Caller → Caller) : Prop where
  /-- Of the callers of a key, one at most has begun its run and is neither done nor dropped. -/
  alone : ∀ i j key, (after moves).Asks i key → (after moves).Asks j key →
    i ∈ (after moves).ran → j ∈ (after moves).ran →
    (after moves).isLive i = true → (after moves).isLive j = true → i = j
  /-- An output that a caller returns is that of a run for the same key that ended, and is shared
  unless the run was its own. -/
  given : ∀ i key v shared, (after moves).Returned i key v shared →
    (shared = false ↔ source i = i) ∧ Gave moves (source i) key v
  /-- A caller that waits for a key when a run of it ends, and is not dropped, returns the output
  of that run when it is polled. -/
  heirs : ∀ pre post j key v, moves = pre ++ .poll j :: post → (after pre).Asks j key →
    (after pre).Ends j v → ∀ w, (after pre).Waits w key → .drop w ∉ post → .poll w ∈ post →
      source w = j ∧ (after moves).Returned w key v true
  /-- A caller that is first polled after a run has ended does not get its output. -/
  late : ∀ pre post j v, moves = pre ++ .poll j :: post → (after pre).Ends j v →
    ∀ i, i ≠ j → .poll i ∉ pre → source i ≠ j

/-! ## The ledger -/

/-- What a history says about the sources of outputs and about the owners of calls, the callers
whose runs completed them. -/
structure Ledger (moves : List (Move τ)) (source : Caller → Caller) (owner : Nat → Caller) :
    Prop where
  polled : ∀ w p key output, (after moves).group.Sits w p key output → .poll w ∈ moves
  own : ∀ i, source i ≠ i → ∃ key v, (after moves).Returned i key v true
  given : ∀ i key v shared, (after moves).Returned i key v shared →
    (shared = false ↔ source i = i) ∧ Gave moves (source i) key v
  owned : ∀ w p key v, (after moves).group.Sits w p key (some v) → Gave moves (owner p) key v
  ended : ∀ pre post j v, moves = pre ++ .poll j :: post → (after pre).Ends j v →
    ∃ key, (after moves).Returned j key v false
  /-- Whoever was inside an open call of the key sits in the completed call or has collected. -/
  heirs : ∀ pre post j key v, moves = pre ++ .poll j :: post → (after pre).Asks j key →
    (after pre).Ends j v → ∀ w q, (after pre).group.Sits w q key none → w ≠ j →
    .drop w ∉ post →
      (.poll w ∉ post ∧ ∃ p, (after moves).group.Sits w p key (some v) ∧ owner p = j) ∨
        (source w = j ∧ (after moves).Returned w key v true)
  /-- Whoever got the output of a run, or sits in the call that it completed, was polled before
  the run ended. -/
  late : ∀ pre post j v, moves = pre ++ .poll j :: post → (after pre).Ends j v →
    (∀ i, source i = j → i = j ∨ .poll i ∈ pre) ∧
      ∀ w p key v', (after moves).group.Sits w p key (some v') → owner p = j → .poll w ∈ pre

/-- A history that goes on by one event splits at that event or before. -/
lemma snoc_eq_append_cons {α : Type} {l pre post : List α} {e x : α}
    (h : l ++ [e] = pre ++ x :: post) :
    (post = [] ∧ l = pre ∧ e = x) ∨ ∃ post', post = post' ++ [e] ∧ l = pre ++ x :: post' := by
  rcases List.append_eq_append_iff.mp h with ⟨between, hpre, he⟩ | ⟨between, hl, hpost⟩
  · cases between with
    | nil =>
      simp only [List.nil_append, List.cons.injEq] at he
      exact .inl ⟨he.2.symm, by simpa using hpre.symm, he.1⟩
    | cons y between => simp at he
  · cases between with
    | nil =>
      simp only [List.nil_append, List.cons.injEq] at hpost
      exact .inl ⟨hpost.2, by simpa using hl, hpost.1.symm⟩
    | cons y between =>
      simp only [List.cons_append, List.cons.injEq] at hpost
      obtain ⟨rfl, rfl⟩ := hpost
      exact .inr ⟨between, rfl, hl⟩

/-- What a caller has returned stays. -/
lemma Crowd.Stepped.returned {c c' : Crowd τ} {e : Move τ} (h : Stepped c e c') {i : Caller}
    {key : String} {v : τ} {shared : Bool} (hi : c.Returned i key v shared) :
    c'.Returned i key v shared := by
  cases h with
  | quiet hreturned => exact (hreturned i key v shared).mpr hi
  | ended j p key' v' he hlanding => exact (hlanding.returned i key v shared).mpr (.inr hi)
  | collected j p key' v' he hj hreturned => exact (hreturned i key v shared).mpr (.inr hi)

/-- A caller whose run is about to end has not returned. -/
lemma Crowd.Ends.not_returned {c : Crowd τ} {j : Caller} {v v' : τ} {key : String} {shared : Bool}
    (h : c.Ends j v) : ¬ c.Returned j key v' shared := by
  obtain ⟨m, hm, hlive, -⟩ := h
  rintro ⟨m', hm', -, hstage⟩
  obtain rfl : m = m' := Option.some.inj (hm.symm.trans hm')
  cases hlive.symm.trans hstage

/-- A run ends with one output. -/
lemma Crowd.Ends.unique {c : Crowd τ} {j : Caller} {v v' : τ} (h : c.Ends j v) (h' : c.Ends j v') :
    v = v' := by
  obtain ⟨m, hm, -, hresult, -⟩ := h
  obtain ⟨m', hm', -, hresult', -⟩ := h'
  obtain rfl : m = m' := Option.some.inj (hm.symm.trans hm')
  exact Option.some.inj (hresult.symm.trans hresult')

section Step

variable {moves : List (Move τ)} {e : Move τ} {source : Caller → Caller} {owner : Nat → Caller}

/-- An output that was given stays given. -/
lemma Gave.snoc {j : Caller} {key : String} {v : τ}
    (hstep : Stepped (after moves) e (after (moves ++ [e]))) (h : Gave moves j key v) :
    Gave (moves ++ [e]) j key v := by
  obtain ⟨hreturned, pre, post, rfl, hends⟩ := h
  exact ⟨hstep.returned hreturned, pre, post ++ [e], by simp, hends⟩

/-- Whoever sits in a call after a step has been polled. -/
lemma Ledger.polled_snoc (h : Ledger moves source owner)
    (hpassed : Passed (after moves) e (after (moves ++ [e]))) (w : Caller) (p : Nat) (key : String)
    (output : Option τ) (hs : (after (moves ++ [e])).group.Sits w p key output) :
    .poll w ∈ moves ++ [e] := by
  rcases hpassed.seats w p key output hs with rfl | ⟨output', hs⟩
  · simp
  · exact List.mem_append_left _ (h.polled w p key output' hs)

/-- A step in which nobody returns and no call is completed changes no source and no owner. -/
lemma Ledger.quiet (h : Ledger moves source owner)
    (hpassed : Passed (after moves) e (after (moves ++ [e])))
    (hreturned : ∀ w key v shared, (after (moves ++ [e])).Returned w key v shared ↔
      (after moves).Returned w key v shared)
    (hsits : ∀ w p key v, (after (moves ++ [e])).group.Sits w p key (some v) ↔
      e ≠ .drop w ∧ (after moves).group.Sits w p key (some v))
    (hpoll : ∀ w p key v, e = .poll w → ¬ (after moves).group.Sits w p key (some v))
    (hends : ∀ j v, e = .poll j → ¬ (after moves).Ends j v) :
    Ledger (moves ++ [e]) source owner where
  polled := h.polled_snoc hpassed
  own i hi := by
    obtain ⟨key, v, hr⟩ := h.own i hi
    exact ⟨key, v, hpassed.stepped.returned hr⟩
  given i key v shared hr := by
    obtain ⟨hshared, hgave⟩ := h.given i key v shared ((hreturned i key v shared).mp hr)
    exact ⟨hshared, hgave.snoc hpassed.stepped⟩
  owned w p key v hs := (h.owned w p key v ((hsits w p key v).mp hs).2).snoc hpassed.stepped
  ended pre post j v hsplit hj := by
    rcases snoc_eq_append_cons hsplit with ⟨-, rfl, rfl⟩ | ⟨post', -, rfl⟩
    · exact absurd hj (hends j v rfl)
    · obtain ⟨key, hr⟩ := h.ended pre post' j v rfl hj
      exact ⟨key, hpassed.stepped.returned hr⟩
  heirs pre post j key v hsplit hasks hj w q hs hw hdrop := by
    rcases snoc_eq_append_cons hsplit with ⟨-, rfl, rfl⟩ | ⟨post', rfl, rfl⟩
    · exact absurd hj (hends j v rfl)
    · simp only [List.mem_append, List.mem_singleton, not_or] at hdrop ⊢
      rcases h.heirs pre post' j key v rfl hasks hj w q hs hw hdrop.1 with
        ⟨hnot, p, hs, ho⟩ | ⟨hsource, hr⟩
      · refine .inl ⟨⟨hnot, fun heq => hpoll w p key v heq.symm hs⟩, p, ?_, ho⟩
        exact (hsits w p key v).mpr ⟨fun heq => hdrop.2 heq.symm, hs⟩
      · exact .inr ⟨hsource, hpassed.stepped.returned hr⟩
  late pre post j v hsplit hj := by
    rcases snoc_eq_append_cons hsplit with ⟨-, rfl, rfl⟩ | ⟨post', rfl, rfl⟩
    · exact absurd hj (hends j v rfl)
    · obtain ⟨hsources, hseats⟩ := h.late pre post' j v rfl hj
      refine ⟨hsources, fun w p key v' hs ho => ?_⟩
      exact hseats w p key v' ((hsits w p key v').mp hs).2 ho

section Landing

variable {j : Caller} {p : Nat} {key : String} {v : τ}

/-- A complete call is not the one that a run completes. -/
lemma Crowd.Landing.ne_place {c c' : Crowd τ} (hl : Landing c c' j p key v) {w : Caller} {q : Nat}
    {key' : String} {v' : τ} (hs : c.group.Sits w q key' (some v')) : q ≠ p := by
  rintro rfl
  exact hl.incomplete w key' v' hs

/-- The caller whose run ends has given its output. -/
lemma Crowd.Landing.gave
    (hl : Landing (after moves) (after (moves ++ [.poll j])) j p key v) :
    Gave (moves ++ [.poll j]) j key v :=
  ⟨(hl.returned j key v false).mpr (.inl ⟨rfl, rfl, rfl, rfl⟩), moves, [], rfl, hl.ends⟩

/-- Nothing has come from a caller whose run is about to end. -/
lemma Ledger.source_ne (h : Ledger moves source owner) (hends : (after moves).Ends j v)
    {i : Caller} (hi : i ≠ j) : source i ≠ j := by
  intro heq
  obtain ⟨key', v', hr⟩ := h.own i fun hself => hi (hself.symm.trans heq)
  have hgave := (h.given i key' v' true hr).2
  rw [heq] at hgave
  exact hends.not_returned hgave.1

/-- A caller whose run is about to end is its own source. -/
lemma Ledger.source_self (h : Ledger moves source owner) (hends : (after moves).Ends j v) :
    source j = j := by
  by_contra hne
  obtain ⟨key', v', hr⟩ := h.own j hne
  exact hends.not_returned hr

/-- A caller whose run is about to end owns no complete call. -/
lemma Ledger.owner_ne (h : Ledger moves source owner) (hends : (after moves).Ends j v)
    {w : Caller} {q : Nat} {key' : String} {v' : τ}
    (hs : (after moves).group.Sits w q key' (some v')) : owner q ≠ j := by
  intro heq
  have hgave := h.owned w q key' v' hs
  rw [heq] at hgave
  exact hends.not_returned hgave.1

/-- When a run ends, those who were inside an open call of the key sit in the call that it
completes, and what is known of runs that ended before stays. -/
lemma Ledger.heirs_landed (h : Ledger moves source owner)
    (hstep : Stepped (after moves) (.poll j) (after (moves ++ [.poll j])))
    (hl : Landing (after moves) (after (moves ++ [.poll j])) j p key v)
    (pre post : List (Move τ)) (i : Caller) (key' : String) (v' : τ)
    (hsplit : moves ++ [.poll j] = pre ++ .poll i :: post) (hasks : (after pre).Asks i key')
    (hi : (after pre).Ends i v') (w : Caller) (q : Nat)
    (hs : (after pre).group.Sits w q key' none) (hw : w ≠ i) (hdrop : .drop w ∉ post) :
    (.poll w ∉ post ∧ ∃ q', (after (moves ++ [.poll j])).group.Sits w q' key' (some v') ∧
        (if q' = p then j else owner q') = i) ∨
      (source w = i ∧ (after (moves ++ [.poll j])).Returned w key' v' true) := by
  rcases snoc_eq_append_cons hsplit with ⟨rfl, rfl, heq⟩ | ⟨post', rfl, rfl⟩
  · obtain rfl : j = i := Move.poll.inj heq
    obtain rfl := hl.ends.unique hi
    obtain ⟨m, hm, rfl⟩ := hl.member
    obtain ⟨m', hm', rfl⟩ := hasks
    obtain rfl : m = m' := Option.some.inj (hm.symm.trans hm')
    obtain rfl := hl.together w q hs
    refine .inl ⟨by simp, q, ?_, if_pos rfl⟩
    exact (hl.sits w q m.key v).mpr (.inl ⟨hw, rfl, rfl, hs⟩)
  · simp only [List.mem_append, List.mem_singleton, not_or] at hdrop ⊢
    rcases h.heirs pre post' i key' v' rfl hasks hi w q hs hw hdrop.1 with
      ⟨hnot, q', hs, ho⟩ | ⟨hsource, hr⟩
    · refine .inl ⟨⟨hnot, ?_⟩, q', (hl.sits w q' key' v').mpr (.inr hs), ?_⟩
      · intro heq
        obtain rfl : w = j := Move.poll.inj heq
        exact hl.outside q' key' v' hs
      · rw [if_neg (hl.ne_place hs)]
        exact ho
    · exact .inr ⟨hsource, hstep.returned hr⟩

/-- When a run ends, nobody who comes later has its output or sits in the call that it
completes. -/
lemma Ledger.late_landed (h : Ledger moves source owner)
    (hl : Landing (after moves) (after (moves ++ [.poll j])) j p key v)
    (pre post : List (Move τ)) (i : Caller) (v' : τ)
    (hsplit : moves ++ [.poll j] = pre ++ .poll i :: post) (hi : (after pre).Ends i v') :
    (∀ w, source w = i → w = i ∨ .poll w ∈ pre) ∧
      ∀ w q key' v₀, (after (moves ++ [.poll j])).group.Sits w q key' (some v₀) →
        (if q = p then j else owner q) = i → .poll w ∈ pre := by
  rcases snoc_eq_append_cons hsplit with ⟨rfl, rfl, heq⟩ | ⟨post', rfl, rfl⟩
  · obtain rfl : j = i := Move.poll.inj heq
    refine ⟨fun w hw => ?_, fun w q key' v₀ hs ho => ?_⟩
    · by_contra hne
      exact h.source_ne hl.ends (fun hself => hne (.inl hself)) hw
    · rcases (hl.sits w q key' v₀).mp hs with ⟨-, rfl, -, hs⟩ | hs
      · exact h.polled w q key' none hs
      · rw [if_neg (hl.ne_place hs)] at ho
        exact absurd ho (h.owner_ne hl.ends hs)
  · obtain ⟨hsources, hseats⟩ := h.late pre post' i v' rfl hi
    refine ⟨hsources, fun w q key' v₀ hs ho => ?_⟩
    rcases (hl.sits w q key' v₀).mp hs with ⟨-, rfl, -, hs⟩ | hs
    · -- the run of `i` has ended already, so that `i` is not the owner of this call
      rw [if_pos rfl] at ho
      subst ho
      obtain ⟨key₁, hr⟩ := h.ended pre post' j v' rfl hi
      exact absurd hr hl.ends.not_returned
    · rw [if_neg (hl.ne_place hs)] at ho
      exact hseats w q key' v₀ hs ho

/-- When a run ends, its caller becomes the owner of the call that it completes. -/
lemma Ledger.landed (h : Ledger moves source owner)
    (hpassed : Passed (after moves) (.poll j) (after (moves ++ [.poll j])))
    (hl : Landing (after moves) (after (moves ++ [.poll j])) j p key v) :
    Ledger (moves ++ [.poll j]) source (fun q => if q = p then j else owner q) where
  polled := h.polled_snoc hpassed
  own i hi := by
    obtain ⟨key', v', hr⟩ := h.own i hi
    exact ⟨key', v', hpassed.stepped.returned hr⟩
  given i key' v' shared hr := by
    rcases (hl.returned i key' v' shared).mp hr with ⟨rfl, rfl, rfl, rfl⟩ | hr
    · have hown := h.source_self hl.ends
      refine ⟨by simp [hown], ?_⟩
      rw [hown]
      exact hl.gave
    · obtain ⟨hshared, hgave⟩ := h.given i key' v' shared hr
      exact ⟨hshared, hgave.snoc hpassed.stepped⟩
  owned w q key' v' hs := by
    rcases (hl.sits w q key' v').mp hs with ⟨-, rfl, rfl, hs⟩ | hs
    · obtain rfl := hl.asked w key' hs
      rw [if_pos rfl]
      exact hl.gave
    · rw [if_neg (hl.ne_place hs)]
      exact (h.owned w q key' v' hs).snoc hpassed.stepped
  ended pre post i v' hsplit hi := by
    rcases snoc_eq_append_cons hsplit with ⟨-, rfl, heq⟩ | ⟨post', -, rfl⟩
    · obtain rfl : j = i := Move.poll.inj heq
      obtain rfl := hl.ends.unique hi
      exact ⟨key, hl.gave.1⟩
    · obtain ⟨key', hr⟩ := h.ended pre post' i v' rfl hi
      exact ⟨key', hpassed.stepped.returned hr⟩
  heirs := h.heirs_landed hpassed.stepped hl
  late := h.late_landed hl

end Landing

/-- When a caller collects an output, its source becomes the owner of the call. -/
lemma Ledger.collected (h : Ledger moves source owner) {i : Caller} {p : Nat} {key : String}
    {v : τ} (hpassed : Passed (after moves) (.poll i) (after (moves ++ [.poll i])))
    (hi : (after moves).group.Sits i p key (some v))
    (hreturned : ∀ w key' v' shared, (after (moves ++ [.poll i])).Returned w key' v' shared ↔
      (w = i ∧ key' = key ∧ v' = v ∧ shared = true) ∨ (after moves).Returned w key' v' shared)
    (hsits : ∀ w q key' v', (after (moves ++ [.poll i])).group.Sits w q key' (some v') ↔
      w ≠ i ∧ (after moves).group.Sits w q key' (some v'))
    (hends : ∀ j v', (.poll i : Move τ) = .poll j → ¬ (after moves).Ends j v') :
    Ledger (moves ++ [.poll i]) (fun w => if w = i then owner p else source w) owner := by
  -- a caller inside a call is live
  have hlive : ∀ {key' v' shared}, ¬ (after moves).Returned i key' v' shared := by
    rintro key' v' shared ⟨m, hm, -, hstage⟩
    obtain ⟨m', hm', hlive, -⟩ := (orderly_after moves).seated i p key _ hi
    obtain rfl : m = m' := Option.some.inj (hm.symm.trans hm')
    cases hlive.symm.trans hstage
  have hother : ∀ {w key' v' shared}, (after moves).Returned w key' v' shared → w ≠ i := by
    rintro w key' v' shared hr rfl
    exact hlive hr
  have howner : owner p ≠ i := hother (h.owned i p key v hi).1
  refine ⟨h.polled_snoc hpassed, ?_, ?_, ?_, ?_, ?_, ?_⟩
  · intro w hw
    by_cases hwi : w = i
    · exact ⟨key, v, (hreturned w key v true).mpr (.inl ⟨hwi, rfl, rfl, rfl⟩)⟩
    · rw [if_neg hwi] at hw
      obtain ⟨key', v', hr⟩ := h.own w hw
      exact ⟨key', v', hpassed.stepped.returned hr⟩
  · intro w key' v' shared hr
    rcases (hreturned w key' v' shared).mp hr with ⟨rfl, rfl, rfl, rfl⟩ | hr
    · rw [if_pos rfl]
      exact ⟨by simp [howner], (h.owned w p key' v' hi).snoc hpassed.stepped⟩
    · rw [if_neg (hother hr)]
      obtain ⟨hshared, hg⟩ := h.given w key' v' shared hr
      exact ⟨hshared, hg.snoc hpassed.stepped⟩
  · intro w q key' v' hs
    exact (h.owned w q key' v' ((hsits w q key' v').mp hs).2).snoc hpassed.stepped
  · intro pre post j v' hsplit hj
    rcases snoc_eq_append_cons hsplit with ⟨-, rfl, heq⟩ | ⟨post', -, rfl⟩
    · exact absurd hj (hends j v' heq)
    · obtain ⟨key', hr⟩ := h.ended pre post' j v' rfl hj
      exact ⟨key', hpassed.stepped.returned hr⟩
  · intro pre post j key' v' hsplit hasks hj w q hs hw hdrop
    rcases snoc_eq_append_cons hsplit with ⟨-, rfl, heq⟩ | ⟨post', rfl, rfl⟩
    · exact absurd hj (hends j v' heq)
    · simp only [List.mem_append, List.mem_singleton, not_or] at hdrop ⊢
      rcases h.heirs pre post' j key' v' rfl hasks hj w q hs hw hdrop.1 with
        ⟨hnot, q', hs, ho⟩ | ⟨hsource, hr⟩
      · by_cases hwi : w = i
        · subst hwi
          obtain ⟨rfl, rfl, hv⟩ := (orderly_after _).group.sits_unique hi hs
          obtain rfl := Option.some.inj hv
          refine .inr ⟨(if_pos rfl).trans ho, ?_⟩
          exact (hreturned w key v true).mpr (.inl ⟨rfl, rfl, rfl, rfl⟩)
        · refine .inl ⟨⟨hnot, fun heq => hwi (Move.poll.inj heq)⟩, q', ?_, ho⟩
          exact (hsits w q' key' v').mpr ⟨hwi, hs⟩
      · exact .inr ⟨(if_neg (hother hr)).trans hsource, hpassed.stepped.returned hr⟩
  · intro pre post j v' hsplit hj
    rcases snoc_eq_append_cons hsplit with ⟨-, rfl, heq⟩ | ⟨post', rfl, rfl⟩
    · exact absurd hj (hends j v' heq)
    · obtain ⟨hsources, hseats⟩ := h.late pre post' j v' rfl hj
      refine ⟨fun w hw => ?_, fun w q key' v₀ hs ho => ?_⟩
      · by_cases hwi : w = i
        · subst hwi
          exact .inr (hseats w p key v hi ((if_pos rfl).symm.trans hw))
        · exact hsources w ((if_neg hwi).symm.trans hw)
      · exact hseats w q key' v₀ ((hsits w q key' v₀).mp hs).2 ho

end Step

/-- **The ledger** of a history goes on with every event. -/
theorem ledger_after (moves : List (Move τ)) : ∃ source owner, Ledger moves source owner := by
  induction moves using List.reverseRecOn with
  | nil =>
    have hsits : ∀ w p key output, ¬ (after ([] : List (Move τ))).group.Sits w p key output := by
      rintro w p key output ⟨d, hd, -⟩
      simp [after, Group.Seated] at hd
    have hreturned : ∀ i key v shared,
        ¬ (after ([] : List (Move τ))).Returned i key v shared := by
      rintro i key v shared ⟨m, hm, -⟩
      simp [after] at hm
    refine ⟨id, id, ?_, ?_, ?_, ?_, ?_, ?_, ?_⟩
    · exact fun w p key output hs => absurd hs (hsits w p key output)
    · exact fun i hi => absurd rfl hi
    · exact fun i key v shared hr => absurd hr (hreturned i key v shared)
    · exact fun w p key v hs => absurd hs (hsits w p key _)
    · exact fun pre post j v hsplit => absurd hsplit (by simp)
    · exact fun pre post j key v hsplit => absurd hsplit (by simp)
    · exact fun pre post j v hsplit => absurd hsplit (by simp)
  | append_singleton moves e ih =>
    obtain ⟨source, owner, h⟩ := ih
    have hpassed : Passed (after moves) e (after (moves ++ [e])) := by
      rw [after_snoc]
      exact (orderly_after moves).step e
    cases hpassed.stepped with
    | quiet hreturned hsits hpoll hends =>
      exact ⟨source, owner, h.quiet hpassed hreturned hsits hpoll hends⟩
    | ended j p key v he hlanding =>
      subst he
      exact ⟨source, _, h.landed hpassed hlanding⟩
    | collected i p key v he hi hreturned hsits hends =>
      subst he
      exact ⟨_, owner, h.collected hpassed hi hreturned hsits hends⟩

/-! ## Single flight -/

/-- A caller whose run ends at its next poll does not wait. -/
lemma Crowd.Ends.not_waiting {c : Crowd τ} (h : c.Orderly) {j : Caller} {v : τ}
    (hends : c.Ends j v) : c.group.turn j ≠ .wait := by
  intro hwait
  obtain ⟨m, hm, hlive, -, -, hdead⟩ := hends
  obtain ⟨p, d, hd, -⟩ := h.group.seated_of_wait hwait
  have hpoll := poll_live hm hlive
  dsimp only at hpoll
  rw [h.group.join_of_seated hd, hwait] at hpoll
  have hstill : (c.poll j).isLive j = true := by
    rw [hpoll, isLive_iff]
    exact ⟨m, hm, hlive⟩
  exact Bool.false_ne_true (hdead.symm.trans hstill)

/-- **Single flight.** After every history, whatever the order of its events, a key has one run at
most that has begun and is neither done nor dropped; every output returned has a source, a caller
of the same key whose run ended with it; the callers that wait when a run ends get its output, and
callers that come later do not.

**Proof sketch.** The ledger says more: it also names the owner of every completed call. A step
lets one caller return at most. If its own run ended, it becomes the owner of the call that it
completed, in which all who wait for its key sit; if it collects an output, the owner of its call
becomes its source. -/
theorem single_flight (moves : List (Move τ)) : ∃ source, SingleFlight moves source := by
  obtain ⟨source, owner, h⟩ := ledger_after moves
  refine ⟨source, ?_, h.given, ?_, ?_⟩
  · rintro i j key ⟨m, hm, rfl⟩ ⟨n, hn, hkey⟩ hi hj hilive hjlive
    obtain ⟨m', hm', hmlive⟩ := isLive_iff.mp hilive
    obtain ⟨n', hn', hnlive⟩ := isLive_iff.mp hjlive
    obtain rfl : m = m' := Option.some.inj (hm.symm.trans hm')
    obtain rfl : n = n' := Option.some.inj (hn.symm.trans hn')
    exact (orderly_after moves).alone hm hn hmlive hnlive hi hj hkey.symm
  · rintro pre post j key v hsplit hasks hends w ⟨m, hm, rfl, hwait⟩ hdrop hpoll
    have horderly := orderly_after pre
    have hw : w ≠ j := by
      rintro rfl
      exact hends.not_waiting horderly hwait
    obtain ⟨p, d, hd, -, hout⟩ := horderly.group.seated_of_wait hwait
    have hs : (after pre).group.Sits w p m.key none := by
      obtain ⟨m', hm', -, hk⟩ := horderly.seated w p d.key none ⟨d, hd, rfl, hout⟩
      obtain rfl : m = m' := Option.some.inj (hm.symm.trans hm')
      exact ⟨d, hd, hk.symm, hout⟩
    rcases h.heirs pre post j m.key v hsplit hasks hends w p hs hw hdrop with ⟨hnot, -⟩ | hgot
    · exact absurd hpoll hnot
    · exact hgot
  · intro pre post j v hsplit hends i hi hnot hsource
    rcases (h.late pre post j v hsplit hends).1 i hsource with heq | hpolled
    · exact hi heq
    · exact hnot hpolled

end LayeredCache.Flight
