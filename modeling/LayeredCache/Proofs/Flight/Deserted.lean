import LayeredCache.Proofs.Flight.SingleFlight

/-!
# Entries that outlive their callers

The table has an entry for a key while a caller is inside a call of it that is not complete. The
converse fails in one way only. A caller that is dropped before it begins its run removes nothing,
so when it was the last one inside, its call stays in the table with an empty line, until the next
caller of the key enters it. This happens when the caller that runs is dropped while another one
waits, and that one is dropped before it is polled again.

## Main definitions

* `Flight.Group.Deserted` — the entry of a key leads to a call with an empty line.
* `Flight.Group.Idles` — a caller is alone inside a call and has not begun its run.
* `Flight.Abandoned` — a caller was dropped while it idled, and nobody entered since.
* `Flight.Gone` — whoever was polled for a key has returned or been dropped.

## Main results

* `Flight.Crowd.Orderly.deserted_step` — what one event makes of an entry without callers.
* `Flight.deserted_after_iff` — the deserted entries are the abandoned ones, after every history.
* `Flight.entry_left_iff` — once the callers of a key are gone, its entry is left exactly if it
  was abandoned.
-/

set_option autoImplicit false

namespace LayeredCache.Flight

variable {τ : Type}

namespace Group

/-! ## Deserted entries -/

/-- The table has an entry for a key, and nobody is inside a call of the key that is not
complete. -/
def Deserted (g : Group τ) (key : String) : Prop :=
  (g.current.lookup key).isSome = true ∧ ∀ w p, ¬ g.Sits w p key none

/-- A caller is the only one inside a call of a key that is not complete, and has not begun its
run. -/
def Idles (g : Group τ) (i : Caller) (key : String) : Prop :=
  ∃ p, g.Sits i p key none ∧ (∀ w, g.Sits w p key none → w = i) ∧ ¬ g.Runs i

/-- Desertion depends on the entry of the key and on the callers inside its calls. -/
lemma deserted_congr {g g' : Group τ} {key : String}
    (hlook : g'.current.lookup key = g.current.lookup key)
    (hsits : ∀ w p, g'.Sits w p key none ↔ g.Sits w p key none) :
    g'.Deserted key ↔ g.Deserted key := by
  unfold Deserted
  rw [hlook]
  exact and_congr_right fun _ => forall₂_congr fun w p => not_congr (hsits w p)

namespace Orderly

variable {g g' : Group τ} {i w : Caller} {p q : Nat} {c c' : Call τ} {key k : String}
  {output : Option τ}

/-- The entry of a key with a caller inside leads to the call of that caller. -/
lemma lookup_of_sits (h : g.Orderly) (hi : g.Sits i p key none) :
    g.current.lookup key = some p := by
  obtain ⟨c, hc, rfl, hout⟩ := hi
  exact h.opened p c hc.1 hout (List.ne_nil_of_mem hc.2)

/-- A key with a caller inside is not deserted. -/
lemma not_deserted (hi : g.Sits i p key none) : ¬ g.Deserted key :=
  fun hdesert => hdesert.2 i p hi

/-- A change of a call of one key leaves the entries of the other keys as they are. -/
lemma lookup_of_changed (h : g.Orderly) (h' : g'.Orderly) (hch : Changed g g' p c')
    (hc : ∀ c, g.calls[p]? = some c → c.key = c'.key) (hkey : c'.key ≠ key) :
    g'.current.lookup key = g.current.lookup key := by
  have hnew : g'.current.lookup key ≠ some p := by
    intro hlook
    obtain ⟨d, hd, hdk, -⟩ := h'.entry key p hlook
    obtain rfl : c' = d := Option.some.inj (hch.here.symm.trans hd)
    exact hkey hdk
  have hold : g.current.lookup key ≠ some p := by
    intro hlook
    obtain ⟨d, hd, hdk, -⟩ := h.entry key p hlook
    exact hkey ((hc d hd).symm.trans hdk)
  refine Option.ext fun q => ?_
  by_cases hq : q = p
  · subst hq
    exact iff_of_false hnew hold
  · exact hch.current key q hq

/-- A change of a call of one key leaves the callers of the other keys where they are. -/
lemma sits_of_changed (hch : Changed g g' p c')
    (hc : ∀ c, g.calls[p]? = some c → c.key = c'.key) (hkey : c'.key ≠ key) :
    g'.Sits w q key output ↔ g.Sits w q key output := by
  rw [hch.sits_iff]
  by_cases hq : q = p
  · subst hq
    refine iff_of_false ?_ ?_
    · rintro (⟨-, -, hk, -⟩ | ⟨hne, -⟩)
      · exact hkey hk
      · exact hne rfl
    · rintro ⟨d, hd, hk, -⟩
      exact hkey ((hc d hd.1).symm.trans hk)
  · simp [hq]

/-- A change of a call of one key leaves the desertion of the other keys as it is. -/
lemma deserted_of_changed (h : g.Orderly) (h' : g'.Orderly) (hch : Changed g g' p c')
    (hc : ∀ c, g.calls[p]? = some c → c.key = c'.key) (hkey : c'.key ≠ key) :
    g'.Deserted key ↔ g.Deserted key :=
  deserted_congr (h.lookup_of_changed h' hch hc hkey) fun _ _ => sits_of_changed hch hc hkey

/-- **Entering fills an entry.** After a caller has joined, its key is not deserted unless the
caller collects from a complete call; nothing changes for the other keys. -/
lemma deserted_join (h : g.Orderly) (hkey : ∀ p k' output, g.Sits i p k' output → k' = k) :
    (g.join i k).Deserted key ↔
      g.Deserted key ∧ (k = key → ∃ p v, g.Sits i p key (some v)) := by
  cases hs : g.seat? i with
  | some p =>
    obtain ⟨c, hc⟩ := seated_of_seat hs
    have hi : g.Sits i p c.key c.output := ⟨c, hc, rfl, rfl⟩
    rw [h.join_of_seated hc]
    refine ⟨fun hdesert => ⟨hdesert, ?_⟩, And.left⟩
    rintro rfl
    obtain rfl := hkey p c.key c.output hi
    cases hout : c.output with
    | none => exact absurd (hout ▸ hi) (hdesert.2 i p)
    | some v => exact ⟨p, v, hout ▸ hi⟩
  | none =>
    obtain ⟨p, c', h', hch, hck, hout, hmem, hcase⟩ := h.join hs k
    have hc : ∀ c, g.calls[p]? = some c → c.key = c'.key := by
      intro c hc
      rcases hcase with ⟨hnone, -⟩ | ⟨d, hd, rfl⟩
      · cases hnone.symm.trans hc
      · obtain rfl : d = c := Option.some.inj (hd.symm.trans hc)
        rfl
    by_cases hk : k = key
    · subst hk
      refine iff_of_false ?_ ?_
      · exact not_deserted (hch.sits_iff.mpr (.inl ⟨rfl, hmem, hck, hout⟩))
      · rintro ⟨-, hsome⟩
        obtain ⟨q, v, d, hd, -⟩ := hsome rfl
        exact h.not_seated hs hd
    · rw [h.deserted_of_changed h' hch hc (hck ▸ hk)]
      exact ⟨fun hdesert => ⟨hdesert, fun heq => absurd heq hk⟩, And.left⟩

/-- Beginning to run fills and empties no entry. -/
lemma deserted_start (h : g.Orderly) (hc : g.calls[p]? = some c) (hhead : c.line.head? = some i) :
    (g.start i).Deserted key ↔ g.Deserted key := by
  have hlook : (g.start i).current = g.current := by
    rw [Group.start, h.seat_eq_some ⟨hc, List.mem_of_head? hhead⟩, current_update]
  exact deserted_congr (by rw [hlook]) fun w q => h.sits_start hc hhead

/-- Landing takes the entry away with the caller. -/
lemma deserted_land (h : g.Orderly) (hi : g.Seated i p c) (hout : c.output = none) (v : τ) :
    (g.land i v).Deserted key ↔ g.Deserted key := by
  obtain ⟨h', hch, hnone⟩ := h.land hi hout v
  by_cases hk : c.key = key
  · subst hk
    refine iff_of_false ?_ (not_deserted ⟨c, hi, rfl, hout⟩)
    rintro ⟨hsome, -⟩
    rw [hnone] at hsome
    cases hsome
  · refine h.deserted_of_changed h' hch (fun d hd => ?_) hk
    obtain rfl : c = d := Option.some.inj (hi.1.symm.trans hd)
    rfl

/-- A line without anybody else. -/
lemma line_eq_of_forall {line : List Caller} (hnodup : line.Nodup) (hi : i ∈ line)
    (hall : ∀ w ∈ line, w = i) : line = [i] := by
  have hline := List.eq_replicate_of_mem hall
  have hle : line.length ≤ 1 := List.nodup_replicate.mp (hline ▸ hnodup)
  rw [hline, Nat.le_antisymm hle (List.length_pos_of_mem hi)]
  rfl

/-- Someone who idles is the whole line of a call without a run. -/
lemma idles_iff (h : g.Orderly) (hi : g.Seated i p c) :
    g.Idles i key ↔ c.key = key ∧ c.output = none ∧ c.line = [i] ∧ c.running = false := by
  constructor
  · rintro ⟨q, ⟨d, hd, hk, hout⟩, halone, hruns⟩
    obtain ⟨rfl, rfl⟩ := h.seated_unique hi hd
    have hall : ∀ w ∈ c.line, w = i := fun w hw => halone w ⟨c, ⟨hi.1, hw⟩, hk, hout⟩
    have hline := line_eq_of_forall (h.nodup p c hi.1) hi.2 hall
    refine ⟨hk, hout, hline, Bool.not_eq_true _ ▸ fun hrun => ?_⟩
    exact hruns ⟨p, c, hi.1, by rw [hline]; rfl, hrun, hout⟩
  · rintro ⟨hk, hout, hline, hrun⟩
    refine ⟨p, ⟨c, hi, hk, hout⟩, fun w hw => ?_, ?_⟩
    · obtain ⟨hmem, -⟩ := (sits_here_iff hi.1).mp hw
      simpa [hline] using hmem
    · rintro ⟨q, d, hd⟩
      obtain ⟨-, rfl⟩ := h.seated_unique hi hd.seated
      exact Bool.false_ne_true (hrun.symm.trans hd.2.2.1)

/-- The entry of a key is removed by a caller that leaves when it runs alone. -/
lemma releases_iff (h : g.Orderly) (hi : g.Seated i p c) :
    g.releases p c i = true ↔ c.output = none ∧ c.running = true ∧ c.line = [i] := by
  cases hout : c.output with
  | some v =>
    -- the table does not lead to a complete call
    have hlook : g.current.lookup c.key ≠ some p := by
      intro hlook
      obtain ⟨d, hd, -, hnone⟩ := h.entry c.key p hlook
      obtain rfl : c = d := Option.some.inj (hi.1.symm.trans hd)
      cases hout.symm.trans hnone
    simp [releases, hlook]
  | none =>
    have hlook := h.opened p c hi.1 hout (List.ne_nil_of_mem hi.2)
    rw [releases, hlook, references, if_pos hlook, hout]
    simp only [Option.isSome_none, Bool.false_or, beq_self_eq_true, Bool.and_true,
      Bool.and_eq_true, decide_eq_true_eq, Call.isRunner, Call.isHolder, hout,
      Option.isNone_none, Bool.true_and, beq_iff_eq, true_and]
    constructor
    · rintro ⟨⟨hrun, hhead⟩, hlen⟩
      obtain ⟨rest, hline⟩ := List.head?_eq_some_iff.mp hhead
      obtain rfl : rest = [] := by
        rw [hline, List.length_cons] at hlen
        exact List.length_eq_zero_iff.mp (by omega)
      exact ⟨hrun, hline⟩
    · rintro ⟨hrun, hline⟩
      simp [hrun, hline]

/-- The table after a caller has left. -/
lemma current_leave (h : g.Orderly) (hi : g.Seated i p c) :
    (g.leave i).current =
      if g.releases p c i then (g.forget c.key).current else g.current := by
  rw [Group.leave, h.seat_eq_some hi]
  simp only [hi.1]
  split <;> rfl

/-- **Leaving empties an entry** exactly when the caller idles. Whoever leaves with others inside
leaves them to the entry, and whoever has begun its run alone takes the entry away. -/
lemma deserted_leave (h : g.Orderly) :
    (g.leave i).Deserted key ↔ g.Idles i key ∨ g.Deserted key := by
  cases hs : g.seat? i with
  | none =>
    rw [leave_of_outside hs]
    refine ⟨.inr, ?_⟩
    rintro (⟨p, ⟨c, hc, -⟩, -⟩ | hdesert)
    · exact absurd hc (h.not_seated hs)
    · exact hdesert
  | some p =>
    obtain ⟨c, hi⟩ := seated_of_seat hs
    by_cases hk : c.key = key
    · subst hk
      rw [h.idles_iff hi]
      cases hout : c.output with
      | some v =>
        have hrel : g.releases p c i = false := by
          rw [← Bool.not_eq_true, h.releases_iff hi, hout]
          simp
        have hcurrent : (g.leave i).current = g.current := by
          rw [h.current_leave hi, hrel, if_neg Bool.false_ne_true]
        have hcongr : (g.leave i).Deserted c.key ↔ g.Deserted c.key := by
          refine deserted_congr (by rw [hcurrent]) fun w q => ?_
          rw [h.sits_leave]
          refine ⟨And.right, fun hw => ⟨?_, hw⟩⟩
          rintro rfl
          have hsame := (h.sits_unique ⟨c, hi, rfl, rfl⟩ hw).2.2
          cases hout.symm.trans hsame
        simp [hcongr]
      | none =>
        have hsits : g.Sits i p c.key none := ⟨c, hi, rfl, hout⟩
        have hnot : ¬ g.Deserted c.key := not_deserted hsits
        have hothers : (∀ w q, ¬ (g.leave i).Sits w q c.key none) ↔ c.line = [i] := by
          simp only [h.sits_leave, not_and]
          constructor
          · intro hall
            have hidle : ∀ w ∈ c.line, w = i := by
              intro w hw
              by_contra hne
              exact hall w p hne ⟨c, ⟨hi.1, hw⟩, rfl, hout⟩
            exact line_eq_of_forall (h.nodup p c hi.1) hi.2 hidle
          · intro hline w q hne hw
            obtain rfl := h.sits_together hsits hw
            have hmem := ((sits_here_iff hi.1).mp hw).1
            rw [hline] at hmem
            exact hne (List.mem_singleton.mp hmem)
        have hrel := h.releases_iff hi
        simp only [hout, true_and] at hrel
        have hleft : (g.leave i).Deserted c.key ↔
            ((g.leave i).current.lookup c.key).isSome = true ∧ c.line = [i] :=
          and_congr_right fun _ => hothers
        rw [hleft, h.current_leave hi]
        cases hrun : c.running with
        | true =>
          simp only [hrun, true_and] at hrel
          simp only [Bool.true_eq_false, and_false, false_or]
          refine iff_of_false ?_ hnot
          rintro ⟨hsome, hline⟩
          rw [if_pos (hrel.mpr hline), lookup_forget, if_pos rfl] at hsome
          cases hsome
        | false =>
          simp only [hrun, Bool.false_eq_true, false_and, iff_false] at hrel
          rw [if_neg hrel, h.lookup_of_sits hsits]
          simp [hnot]
    · obtain ⟨h', hch⟩ := h.leave hi
      rw [h.deserted_of_changed h' hch (fun d hd => ?_) hk]
      · rw [h.idles_iff hi]
        simp [hk]
      · obtain rfl : c = d := Option.some.inj (hi.1.symm.trans hd)
        rfl

end Orderly

end Group

namespace Crowd

/-! ## One event -/

/-- At its next poll a caller looks for a call of a key: it is live, and has no complete call of
the key to collect from. -/
def Enters (c : Crowd τ) (i : Caller) (key : String) : Prop :=
  c.isLive i = true ∧ c.Asks i key ∧ ∀ p v, ¬ c.group.Sits i p key (some v)

/-- Whether an event lets somebody enter a call of a key. -/
def Fills (c : Crowd τ) (e : Move τ) (key : String) : Prop :=
  ∃ i, e = .poll i ∧ c.Enters i key

namespace Orderly

variable {c : Crowd τ} {i : Caller} {m : Member τ} {p : Nat} {key : String}

/-- The end of a run fills and empties no entry. -/
lemma deserted_complete (h : c.Orderly) {call : Call τ} (hi : c.group.Seated i p call)
    (hout : call.output = none) :
    (c.complete i m).group.Deserted key ↔ c.group.Deserted key := by
  unfold complete
  cases m.result with
  | none => rfl
  | some v => exact h.group.deserted_land hi hout v

/-- **A poll** fills the entry of the key that the caller asks for, unless it only collects. -/
lemma deserted_poll (h : c.Orderly) (i : Caller) :
    (c.poll i).group.Deserted key ↔ c.group.Deserted key ∧ ¬ c.Enters i key := by
  by_cases hlive : c.isLive i = true
  · obtain ⟨m, hm, hstage⟩ := isLive_iff.mp hlive
    have hkey : ∀ p k output, c.group.Sits i p k output → k = m.key := by
      intro p k output hi
      obtain ⟨m', hm', -, hk⟩ := h.seated i p k output hi
      obtain rfl : m = m' := Option.some.inj (hm.symm.trans hm')
      exact hk.symm
    have h₁ := h.join hm hstage
    have hjoin : (c.group.join i m.key).Deserted key ↔
        c.group.Deserted key ∧ ¬ c.Enters i key := by
      rw [h.group.deserted_join hkey]
      refine and_congr_right fun _ => ?_
      constructor
      · rintro hsome ⟨-, ⟨m', hm', hk⟩, hnone⟩
        obtain rfl : m = m' := Option.some.inj (hm.symm.trans hm')
        obtain ⟨p, v, hs⟩ := hsome hk
        exact hnone p v hs
      · intro hnot hk
        by_contra hnone
        exact hnot ⟨hlive, ⟨m, hm, hk⟩, fun p v hs => hnone ⟨p, v, hs⟩⟩
    rw [← hjoin]
    -- what the caller does once it is inside fills and empties no entry
    have hpoll := poll_live hm hstage
    obtain ⟨-, -, p, output, hi, -⟩ := h.sits_join hm
    dsimp only at hpoll
    rcases h₁.group.turn_cases hi with ⟨v, rfl, hturn⟩ | ⟨rfl, hturn, -⟩ |
      ⟨rfl, call, hcall, hhead, hk, hout, ⟨hturn, -⟩ | ⟨hturn, -⟩⟩
    · rw [hturn] at hpoll
      have hidles : ¬ (c.group.join i m.key).Idles i key := by
        rintro ⟨q, hs, -⟩
        cases (h₁.group.sits_unique hi hs).2.2
      have hleave : ((c.group.join i m.key).leave i).Deserted key ↔
          (c.group.join i m.key).Idles i key ∨ (c.group.join i m.key).Deserted key :=
        h₁.group.deserted_leave
      rw [hpoll]
      exact hleave.trans (or_iff_right hidles)
    · rw [hturn] at hpoll
      rw [hpoll]
    · rw [hturn] at hpoll
      rw [hpoll]
      exact h₁.deserted_complete ⟨hcall, List.mem_of_head? hhead⟩ hout
    · rw [hturn] at hpoll
      rw [hpoll]
      have hch := (h₁.group.start hcall hhead).2
      have h₂ := h₁.start hcall hhead hout hm
      exact (h₂.deserted_complete ⟨hch.here, List.mem_of_head? hhead⟩ hout).trans
        (h₁.group.deserted_start hcall hhead)
  · have hnot : ∀ m, c.members[i]? = some m → m.stage ≠ .live :=
      fun m hm hs => hlive (isLive_iff.mpr ⟨m, hm, hs⟩)
    rw [poll_other hnot]
    exact ⟨fun hdesert => ⟨hdesert, fun henters => hlive henters.1⟩, And.left⟩

/-- **A drop** empties an entry when the caller idles. -/
lemma deserted_drop (h : c.Orderly) (i : Caller) :
    (c.drop i).group.Deserted key ↔ c.group.Idles i key ∨ c.group.Deserted key := by
  unfold Crowd.drop
  by_cases hlive : c.isLive i = true
  · rw [if_pos hlive]
    exact h.group.deserted_leave
  · rw [if_neg hlive]
    refine ⟨.inr, ?_⟩
    rintro (⟨p, hs, -⟩ | hdesert)
    · obtain ⟨m, hm, hstage, -⟩ := h.seated i p key none hs
      exact absurd (isLive_iff.mpr ⟨m, hm, hstage⟩) hlive
    · exact hdesert

/-- **One event.** An entry is without callers after an event exactly when the event dropped a
caller that idled, or when it was so before and nobody entered. -/
theorem deserted_step (h : c.Orderly) (e : Move τ) :
    (c.step e).group.Deserted key ↔
      (∃ i, e = .drop i ∧ c.group.Idles i key) ∨ c.group.Deserted key ∧ ¬ c.Fills e key := by
  cases e with
  | poll i => simpa [Crowd.step, Fills] using h.deserted_poll i
  | drop i => simpa [Crowd.step, Fills] using h.deserted_drop i
  | add k result => simp [Crowd.step, Crowd.add, Fills]
  | supply i output => simp [Crowd.step, Crowd.supply, Fills]

end Orderly

/-! ## Callers that are gone -/

/-- A poll leaves the callers what they ask for. -/
lemma asks_poll {c : Crowd τ} {i w : Caller} {key : String} :
    (c.poll i).Asks w key ↔ c.Asks w key := by
  have hstage : ∀ (c' : Crowd τ) (stage : Stage τ), c'.members = c.members →
      ((c'.setStage i stage).Asks w key ↔ c.Asks w key) := by
    intro c' stage hmembers
    unfold Asks
    rw [members_setStage, hmembers]
    by_cases hw : w = i
    · rw [if_pos hw]
      simp
    · rw [if_neg hw]
  have hcomplete : ∀ (c' : Crowd τ) (m : Member τ), c'.members = c.members →
      ((c'.complete i m).Asks w key ↔ c.Asks w key) := by
    intro c' m hmembers
    unfold complete
    cases m.result with
    | none => simp only [Asks, hmembers]
    | some v => exact hstage _ _ hmembers
  by_cases hlive : c.isLive i = true
  · obtain ⟨m, hm, hlive⟩ := isLive_iff.mp hlive
    rw [poll_live hm hlive]
    dsimp only
    split
    · rfl
    · rfl
    · exact hcomplete _ m rfl
    · exact hcomplete _ m rfl
    · exact hstage _ _ rfl
  · rw [poll_other fun m hm hs => hlive (isLive_iff.mpr ⟨m, hm, hs⟩)]

end Crowd

open Crowd

/-- Whoever was polled for a key has returned or been dropped. -/
def Gone (moves : List (Move τ)) (key : String) : Prop :=
  ∀ pre post w, moves = pre ++ .poll w :: post → (after pre).Asks w key →
    (after moves).isLive w = false

/-- A caller inside a call of a key was polled for it. -/
lemma polled_of_sits (moves : List (Move τ)) {w : Caller} {p : Nat} {key : String}
    {output : Option τ} (hs : (after moves).group.Sits w p key output) :
    ∃ pre post, moves = pre ++ .poll w :: post ∧ (after pre).Asks w key := by
  induction moves using List.reverseRecOn generalizing output with
  | nil => exact absurd hs Group.not_sits_empty
  | append_singleton moves e ih =>
    have hpassed : Passed (after moves) e (after (moves ++ [e])) := by
      rw [after_snoc]
      exact (orderly_after moves).step e
    rcases hpassed.seats w p key output hs with rfl | ⟨output', hs⟩
    · obtain ⟨m, hm, -, hk⟩ := hpassed.orderly.seated w p key output hs
      rw [after_snoc] at hm
      exact ⟨moves, [], rfl, asks_poll.mp ⟨m, hm, hk⟩⟩
    · obtain ⟨pre, post, rfl, hasks⟩ := ih hs
      exact ⟨pre, post ++ [e], by simp, hasks⟩

/-- Nobody is inside a call of a key whose callers are gone. -/
lemma Gone.not_sits {moves : List (Move τ)} {key : String} (h : Gone moves key) (w : Caller)
    (p : Nat) (output : Option τ) : ¬ (after moves).group.Sits w p key output := by
  intro hs
  obtain ⟨pre, post, hsplit, hasks⟩ := polled_of_sits moves hs
  obtain ⟨m, hm, hlive, -⟩ := (orderly_after moves).seated w p key output hs
  exact Bool.false_ne_true ((h pre post w hsplit hasks).symm.trans (isLive_iff.mpr ⟨m, hm, hlive⟩))

/-! ## Whole histories -/

/-- A caller was dropped while it was the only one inside a call of a key and had not begun its
run, and nobody entered a call of the key since. -/
def Abandoned (moves : List (Move τ)) (i : Caller) (key : String) : Prop :=
  ∃ pre post, moves = pre ++ .drop i :: post ∧ (after pre).group.Idles i key ∧
    ∀ mid e rest, post = mid ++ e :: rest → ¬ (after (pre ++ .drop i :: mid)).Fills e key

/-- **Every history.** The entries without callers are those that were abandoned. -/
theorem deserted_after_iff (moves : List (Move τ)) (key : String) :
    (after moves).group.Deserted key ↔ ∃ i, Abandoned moves i key := by
  induction moves using List.reverseRecOn with
  | nil =>
    refine iff_of_false (fun hdesert => by cases hdesert.1) ?_
    rintro ⟨i, pre, post, hsplit, -⟩
    simp at hsplit
  | append_singleton moves e ih =>
    rw [after_snoc, (orderly_after moves).deserted_step e, ih]
    constructor
    · rintro (⟨i, rfl, hidles⟩ | ⟨⟨i, pre, post, rfl, hidles, hquiet⟩, hfills⟩)
      · exact ⟨i, moves, [], rfl, hidles, by simp⟩
      · refine ⟨i, pre, post ++ [e], by simp, hidles, fun mid e' rest hsplit => ?_⟩
        rcases snoc_eq_append_cons hsplit with ⟨-, rfl, rfl⟩ | ⟨rest', -, hpost⟩
        · exact hfills
        · exact hquiet mid e' rest' hpost
    · rintro ⟨i, pre, post, hsplit, hidles, hquiet⟩
      rcases snoc_eq_append_cons hsplit with ⟨-, rfl, rfl⟩ | ⟨post', rfl, rfl⟩
      · exact .inl ⟨i, rfl, hidles⟩
      · refine .inr ⟨⟨i, pre, post', rfl, hidles, fun mid e' rest hpost => ?_⟩, ?_⟩
        · exact hquiet mid e' (rest ++ [e]) (by simp [hpost])
        · exact hquiet post' e [] rfl

/-- A table without an entry for any key is empty. -/
lemma Group.inFlight_eq_zero_iff (g : Group τ) :
    g.inFlight = 0 ↔ ∀ key, g.current.lookup key = none := by
  rw [Group.inFlight, List.length_eq_zero_iff]
  refine ⟨fun hempty key => by rw [hempty]; rfl, fun hnone => ?_⟩
  cases hentries : g.current with
  | nil => rfl
  | cons entry rest =>
    have hfirst := hnone entry.1
    rw [hentries, List.lookup_cons_self] at hfirst
    cases hfirst

/-- **What is left behind.** Once the callers of a key are gone, its entry is still there exactly
if the last of them was dropped while it was alone inside and had not begun its run. Once all
callers are gone, nothing is in flight exactly if no key was abandoned like that.

**Proof sketch.** Nobody is inside a call of a key whose callers are gone, so its entry is there
exactly if it is deserted. -/
theorem entry_left_iff (moves : List (Move τ)) :
    (∀ key, Gone moves key → (((after moves).group.current.lookup key).isSome = true ↔
      ∃ i, Abandoned moves i key)) ∧
    ((∀ key, Gone moves key) →
      ((after moves).group.inFlight = 0 ↔ ∀ i key, ¬ Abandoned moves i key)) := by
  have hleft : ∀ key, Gone moves key → (((after moves).group.current.lookup key).isSome = true ↔
      ∃ i, Abandoned moves i key) := by
    intro key hgone
    rw [← deserted_after_iff]
    exact ⟨fun hsome => ⟨hsome, fun w p => hgone.not_sits w p none⟩, And.left⟩
  refine ⟨hleft, fun hgone => ?_⟩
  rw [Group.inFlight_eq_zero_iff, forall_comm]
  refine forall_congr' fun key => ?_
  rw [← not_exists, ← hleft key (hgone key), Option.not_isSome_iff_eq_none]

/-- Nothing is left when a caller is dropped while it runs alone. -/
theorem entry_left_iff_runner :
    Gone [.add "k" (none : Option Unit), .poll 0, .drop 0] "k" ∧
      ¬ ∃ i, Abandoned [.add "k" (none : Option Unit), .poll 0, .drop 0] i "k" := by
  have hgone : Gone [.add "k" (none : Option Unit), .poll 0, .drop 0] "k" := by
    intro pre post w _ _
    rcases w with - | w <;> rfl
  refine ⟨hgone, fun hleft => ?_⟩
  have hsome := ((entry_left_iff _).1 "k" hgone).mpr hleft
  revert hsome
  decide

/-- An entry stays when the caller that runs is dropped, and then the one that waits for it,
before it is polled again: both are gone, and the key is still in flight. -/
theorem entry_left_behind :
    ¬ ∀ (moves : List (Move Unit)) (key : String), Gone moves key →
      (after moves).group.current.lookup key = none := by
  intro hnone
  have hgone : Gone [.add "k" (none : Option Unit), .poll 0, .add "k" none, .poll 1, .drop 0,
      .drop 1] "k" := by
    intro pre post w _ _
    rcases w with - | - | w <;> rfl
  have hlook := hnone _ "k" hgone
  revert hlook
  decide

end LayeredCache.Flight
