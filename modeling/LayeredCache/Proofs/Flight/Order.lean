import LayeredCache.Flight.Group
import Mathlib.Data.List.Nodup

/-!
# Order among shared runs

Callers come and go in any order, runs are handed on when their holder is dropped, and a new call
of a key may be open while callers of an older one still collect its output. What holds through
all of it is stated here once: nobody is in two lines, the table leads to calls that are not
complete, and a call that is not complete and has callers inside is the one that the table names.

## Main definitions

* `Flight.Group.Seated` — a caller is inside the call at a place.
* `Flight.Group.Conducts` — a caller has begun the run of the call at a place.
* `Flight.Group.Orderly` — the invariant.

## Main results

* `Flight.Group.Orderly.join`, `Flight.Group.Orderly.start`, `Flight.Group.Orderly.leave`,
  `Flight.Group.Orderly.land` — every operation keeps the invariant and changes one call.
* `Flight.Group.Orderly.conductor_unique` — a key has one running caller at most.
-/

set_option autoImplicit false

namespace LayeredCache.Flight

variable {τ : Type}

namespace Group

/-! ## Look-ups in the table and in the list of calls -/

/-- The call at a place after a change at a place. -/
lemma calls_update (g : Group τ) (p : Nat) (f : Call τ → Call τ) (q : Nat) :
    (g.update p f).calls[q]? = if q = p then (g.calls[q]?).map f else g.calls[q]? := by
  rw [update, List.getElem?_modify]
  by_cases hq : q = p
  · subst hq
    simp
  · simp [hq, Ne.symm hq]

/-- A change that moves nobody changes no seat. -/
lemma seat_update (g : Group τ) (p : Nat) {f : Call τ → Call τ} (hf : ∀ c, (f c).line = c.line)
    (i : Caller) : (g.update p f).seat? i = g.seat? i := by
  have hlines : (g.update p f).calls.map Call.line = g.calls.map Call.line := by
    apply List.ext_getElem?
    intro q
    rw [List.getElem?_map, List.getElem?_map, calls_update]
    by_cases hq : q = p
    · rw [if_pos hq, Option.map_map]
      exact congrArg (Option.map · g.calls[q]?) (funext hf)
    · rw [if_neg hq]
  have hseat : ∀ calls : List (Call τ), (calls.findIdx? fun c => c.line.contains i) =
      (calls.map Call.line).findIdx? fun line => line.contains i := by
    intro calls
    rw [List.findIdx?_map]
    rfl
  rw [seat?, seat?, hseat, hseat, hlines]

@[simp] lemma current_update (g : Group τ) (p : Nat) (f : Call τ → Call τ) :
    (g.update p f).current = g.current := rfl

/-- Looking a key up among the entries of the other keys. -/
lemma lookup_filter_ne (entries : List (String × Nat)) (key key' : String) :
    (entries.filter fun e => e.1 != key).lookup key' =
      if key' = key then none else entries.lookup key' := by
  induction entries with
  | nil => simp
  | cons e rest ih =>
    obtain ⟨k, p⟩ := e
    by_cases hk : k = key
    · subst hk
      rw [List.filter_cons_of_neg (by simp), ih]
      by_cases hkey : key' = k
      · rw [if_pos hkey, if_pos hkey]
      · have hne : (key' == k) = false := beq_false_of_ne hkey
        rw [if_neg hkey, if_neg hkey, List.lookup_cons, hne]
    · rw [List.filter_cons_of_pos (by simpa using hk), List.lookup_cons, List.lookup_cons, ih]
      by_cases hkey : key' = k
      · subst hkey
        simp [hk]
      · have hne : (key' == k) = false := beq_false_of_ne hkey
        rw [hne]

/-- The table after the entry of a key is removed. -/
lemma lookup_forget (g : Group τ) (key key' : String) :
    (g.forget key).current.lookup key' = if key' = key then none else g.current.lookup key' :=
  lookup_filter_ne g.current key key'

/-! ## The invariant -/

/-- A caller is inside the call at a place. -/
def Seated (g : Group τ) (i : Caller) (p : Nat) (c : Call τ) : Prop :=
  g.calls[p]? = some c ∧ i ∈ c.line

/-- A caller has begun the run of the call at a place, which is not complete. -/
def Conducts (g : Group τ) (i : Caller) (p : Nat) (c : Call τ) : Prop :=
  g.calls[p]? = some c ∧ c.line.head? = some i ∧ c.running = true ∧ c.output = none

/-- What holds of the calls between two operations. -/
structure Orderly (g : Group τ) : Prop where
  nodup : ∀ (p : Nat) (c : Call τ), g.calls[p]? = some c → c.line.Nodup
  /-- Nobody is in two lines. -/
  apart : ∀ i p q (c d : Call τ), g.Seated i p c → g.Seated i q d → p = q
  /-- The table leads to calls of the right key that are not complete. -/
  entry : ∀ key p, g.current.lookup key = some p →
    ∃ c : Call τ, g.calls[p]? = some c ∧ c.key = key ∧ c.output = none
  /-- A call that is not complete and has callers inside is in the table. -/
  opened : ∀ (p : Nat) (c : Call τ), g.calls[p]? = some c → c.output = none → c.line ≠ [] →
    g.current.lookup c.key = some p
  /-- The permit of a run that has begun is held. -/
  held : ∀ (p : Nat) (c : Call τ), g.calls[p]? = some c → c.running = true → c.output = none →
    c.line ≠ []

/-- A caller that conducts a run is inside the call. -/
lemma Conducts.seated {g : Group τ} {i : Caller} {p : Nat} {c : Call τ} (h : g.Conducts i p c) :
    g.Seated i p c :=
  ⟨h.1, List.mem_of_head? h.2.1⟩

/-- A caller with a seat is inside the call there. -/
lemma seated_of_seat {g : Group τ} {i : Caller} {p : Nat} (hi : g.seat? i = some p) :
    ∃ c, g.Seated i p c := by
  unfold seat? at hi
  obtain ⟨hp, hmem, -⟩ := List.findIdx?_eq_some_iff_getElem.mp hi
  exact ⟨g.calls[p], List.getElem?_eq_getElem hp, by simpa using hmem⟩

/-- A caller without a seat finds that it is outside. -/
lemma turn_outside {g : Group τ} {i : Caller} (hi : g.seat? i = none) : g.turn i = .outside := by
  rw [turn, callOf?, hi]
  rfl

/-- A group in which nothing has happened is orderly. -/
lemma orderly_empty : Orderly ({} : Group τ) where
  nodup p c hc := by simp at hc
  apart i p q c d hc _ := by simp [Seated] at hc
  entry key p hp := by simp at hp
  opened p c hc := by simp at hc
  held p c hc := by simp at hc

namespace Orderly

variable {g g' : Group τ} {i j : Caller} {p q : Nat} {c d c' : Call τ} {key : String}

/-- The seat of a caller is the place of the call that it is inside. -/
lemma seat_eq_some (h : g.Orderly) (hi : g.Seated i p c) : g.seat? i = some p := by
  have hp : p < g.calls.length := (List.getElem?_eq_some_iff.mp hi.1).1
  unfold seat?
  rw [List.findIdx?_eq_some_iff_getElem]
  refine ⟨hp, ?_, ?_⟩
  · have hc : g.calls[p] = c := (List.getElem?_eq_some_iff.mp hi.1).2
    simpa [hc] using hi.2
  · intro q hq
    have hlt : q < g.calls.length := by omega
    have hne : i ∉ g.calls[q].line := by
      intro hmem
      have : q = p := h.apart i q p _ _ ⟨List.getElem?_eq_getElem hlt, hmem⟩ hi
      omega
    simpa using hne

/-- A caller without a seat is in no line. -/
lemma not_seated (h : g.Orderly) (hi : g.seat? i = none) : ¬ g.Seated i p c := by
  intro hs
  rw [h.seat_eq_some hs] at hi
  cases hi

/-- The call that a caller is inside. -/
lemma callOf_eq_some (h : g.Orderly) (hi : g.Seated i p c) : g.callOf? i = some c := by
  rw [callOf?, h.seat_eq_some hi]
  exact hi.1

/-- The call that a caller is inside is one. -/
lemma seated_unique (h : g.Orderly) (hc : g.Seated i p c) (hd : g.Seated i q d) :
    p = q ∧ c = d := by
  obtain rfl : p = q := h.apart i p q c d hc hd
  have : some c = some d := hc.1.symm.trans hd.1
  exact ⟨rfl, Option.some.inj this⟩

/-- **One run for each key.** Two callers that conduct runs of calls of the same key are the same
caller. -/
lemma conductor_unique (h : g.Orderly) (hc : g.Conducts i p c) (hd : g.Conducts j q d)
    (hkey : c.key = d.key) : i = j := by
  have hp := h.opened p c hc.1 hc.2.2.2 (List.ne_nil_of_mem hc.seated.2)
  have hq := h.opened q d hd.1 hd.2.2.2 (List.ne_nil_of_mem hd.seated.2)
  obtain rfl : p = q := by
    rw [hkey, hq] at hp
    exact (Option.some.inj hp).symm
  obtain rfl : c = d := Option.some.inj (hc.1.symm.trans hd.1)
  exact Option.some.inj (hc.2.1.symm.trans hd.2.1)

/-! ### What a caller finds -/

/-- A caller inside a complete call can collect its output. -/
lemma turn_collect (h : g.Orderly) (hi : g.Seated i p c) {output : τ}
    (hout : c.output = some output) : g.turn i = .collect output := by
  rw [turn, h.callOf_eq_some hi]
  simp only [hout]

/-- The head of the line runs once it has begun. -/
lemma turn_running (h : g.Orderly) (hi : g.Conducts i p c) : g.turn i = .running := by
  rw [turn, h.callOf_eq_some hi.seated]
  simp [hi.2.2.2, Call.isRunner, Call.isHolder, hi.2.2.1, hi.2.1]

/-- The head of the line may begin. -/
lemma turn_start (h : g.Orderly) (hc : g.calls[p]? = some c) (hhead : c.line.head? = some i)
    (hrun : c.running = false) (hout : c.output = none) : g.turn i = .start := by
  rw [turn, h.callOf_eq_some ⟨hc, List.mem_of_head? hhead⟩]
  simp [hout, Call.isRunner, Call.isHolder, hrun, hhead]

/-- A caller behind the head waits. -/
lemma turn_wait (h : g.Orderly) (hi : g.Seated i p c) (hhead : c.line.head? ≠ some i)
    (hout : c.output = none) : g.turn i = .wait := by
  rw [turn, h.callOf_eq_some hi]
  simp [hout, Call.isRunner, Call.isHolder, hhead]

/-- A caller that waits is behind the head of a call that is not complete. -/
lemma seated_of_wait (h : g.Orderly) (hi : g.turn i = .wait) :
    ∃ p c, g.Seated i p c ∧ c.line.head? ≠ some i ∧ c.output = none := by
  cases hs : g.seat? i with
  | none =>
    rw [turn_outside hs] at hi
    cases hi
  | some p =>
    obtain ⟨c, hc⟩ := seated_of_seat hs
    refine ⟨p, c, hc, ?_, ?_⟩
    · intro hhead
      cases hout : c.output with
      | some output =>
        rw [h.turn_collect hc hout] at hi
        cases hi
      | none =>
        cases hrun : c.running with
        | true =>
          rw [h.turn_running ⟨hc.1, hhead, hrun, hout⟩] at hi
          cases hi
        | false =>
          rw [h.turn_start hc.1 hhead hrun hout] at hi
          cases hi
    · cases hout : c.output with
      | none => rfl
      | some output =>
        rw [h.turn_collect hc hout] at hi
        cases hi

end Orderly

/-! ## Changes of one call -/

/-- A group after the call at one place was replaced, or opened there. The table leads to the
other calls as before. -/
structure Changed (g g' : Group τ) (p : Nat) (c' : Call τ) : Prop where
  here : g'.calls[p]? = some c'
  elsewhere : ∀ q, q ≠ p → g'.calls[q]? = g.calls[q]?
  current : ∀ key q, q ≠ p →
    (g'.current.lookup key = some q ↔ g.current.lookup key = some q)

/-- Replacing a call and leaving the table as it is. -/
lemma changed_update {g : Group τ} {p : Nat} {c : Call τ} (hc : g.calls[p]? = some c)
    (f : Call τ → Call τ) : Changed g (g.update p f) p (f c) where
  here := by rw [calls_update, if_pos rfl, hc]; rfl
  elsewhere q hq := by rw [calls_update, if_neg hq]
  current _ _ _ := Iff.rfl

/-- Removing the entry that leads to the call that was replaced. -/
lemma Changed.forget {g g' : Group τ} {p : Nat} {c' : Call τ} {key : String}
    (h : Changed g g' p c') (hkey : g.current.lookup key = some p) :
    Changed g (g'.forget key) p c' where
  here := h.here
  elsewhere := h.elsewhere
  current key' q hq := by
    rw [lookup_forget]
    by_cases heq : key' = key
    · subst heq
      rw [if_pos rfl, hkey]
      constructor
      · intro hnone
        cases hnone
      · intro hsome
        exact absurd (Option.some.inj hsome).symm hq
    · rw [if_neg heq]
      exact h.current key' q hq

section Changed

variable {g g' : Group τ} {i : Caller} {p q : Nat} {c c' d : Call τ}

/-- Who is inside a call after a change. -/
lemma Changed.seated_iff (h : Changed g g' p c') :
    g'.Seated i q d ↔ (q = p ∧ d = c' ∧ i ∈ c'.line) ∨ (q ≠ p ∧ g.Seated i q d) := by
  by_cases hq : q = p
  · subst hq
    constructor
    · rintro ⟨hd, hi⟩
      obtain rfl : c' = d := Option.some.inj (h.here.symm.trans hd)
      exact .inl ⟨rfl, rfl, hi⟩
    · rintro (⟨-, rfl, hi⟩ | ⟨hne, -⟩)
      · exact ⟨h.here, hi⟩
      · exact absurd rfl hne
  · constructor
    · rintro ⟨hd, hi⟩
      exact .inr ⟨hq, (h.elsewhere q hq) ▸ hd, hi⟩
    · rintro (⟨heq, -, -⟩ | ⟨-, hd, hi⟩)
      · exact absurd heq hq
      · exact ⟨(h.elsewhere q hq).trans hd, hi⟩

/-- A group stays orderly when the call that replaces another fits into it: its callers are in no
other line, the table leads to it only while it is not complete, and does so while somebody is
inside. -/
lemma Orderly.change (h : g.Orderly) (hch : Changed g g' p c') (hnodup : c'.line.Nodup)
    (halone : ∀ i ∈ c'.line, ∀ q d, g.Seated i q d → q = p)
    (hentry : ∀ key, g'.current.lookup key = some p → c'.key = key ∧ c'.output = none)
    (hopened : c'.output = none → c'.line ≠ [] → g'.current.lookup c'.key = some p)
    (hheld : c'.running = true → c'.output = none → c'.line ≠ []) : g'.Orderly where
  nodup q d hd := by
    by_cases hq : q = p
    · subst hq
      obtain rfl : c' = d := Option.some.inj (hch.here.symm.trans hd)
      exact hnodup
    · exact h.nodup q d ((hch.elsewhere q hq) ▸ hd)
  apart i q r d e hd he := by
    rw [hch.seated_iff] at hd he
    rcases hd with ⟨rfl, -, hi⟩ | ⟨hq, hd⟩ <;> rcases he with ⟨rfl, -, hj⟩ | ⟨hr, he⟩
    · rfl
    · exact (halone i hi r e he).symm
    · exact halone i hj q d hd
    · exact h.apart i q r d e hd he
  entry key q hq := by
    by_cases hp : q = p
    · subst hp
      obtain ⟨hkey, hout⟩ := hentry key hq
      exact ⟨c', hch.here, hkey, hout⟩
    · obtain ⟨d, hd, hkey, hout⟩ := h.entry key q ((hch.current key q hp).mp hq)
      exact ⟨d, (hch.elsewhere q hp).trans hd, hkey, hout⟩
  opened q d hd hout hline := by
    by_cases hq : q = p
    · subst hq
      obtain rfl : c' = d := Option.some.inj (hch.here.symm.trans hd)
      exact hopened hout hline
    · exact (hch.current d.key q hq).mpr (h.opened q d ((hch.elsewhere q hq) ▸ hd) hout hline)
  held q d hd hrun hout := by
    by_cases hq : q = p
    · subst hq
      obtain rfl : c' = d := Option.some.inj (hch.here.symm.trans hd)
      exact hheld hrun hout
    · exact h.held q d ((hch.elsewhere q hq) ▸ hd) hrun hout

end Changed

/-! ## The operations -/

namespace Orderly

variable {g : Group τ} {i j : Caller} {p q : Nat} {c d c' : Call τ} {key : String}

/-- Nobody leaves when a caller that is in no line goes. -/
lemma leave_of_outside (hi : g.seat? i = none) : g.leave i = g := by
  rw [leave, hi]

/-- A caller that is inside a call stays there when it joins. -/
lemma join_of_seated (h : g.Orderly) (hi : g.Seated i p c) (key : String) : g.join i key = g := by
  rw [join, h.seat_eq_some hi]
  rfl

/-- **Entering.** A caller in no line enters the current call of its key behind the others, or a
new call. -/
theorem join (h : g.Orderly) (hi : g.seat? i = none) (key : String) :
    ∃ p c', (g.join i key).Orderly ∧ Changed g (g.join i key) p c' ∧ c'.key = key ∧
      c'.output = none ∧ i ∈ c'.line ∧
      ((g.calls[p]? = none ∧ c' = { key := key, line := [i] }) ∨
        ∃ c, g.calls[p]? = some c ∧ c' = { c with line := c.line ++ [i] }) := by
  have hjoin : g.join i key = g.enter i key := by
    rw [Group.join, hi]
    rfl
  rw [hjoin]
  unfold enter
  cases hkey : g.current.lookup key with
  | some p =>
    obtain ⟨c, hc, hck, hout⟩ := h.entry key p hkey
    have hch := changed_update hc fun c => { c with line := c.line ++ [i] }
    have hnot : i ∉ c.line := fun hmem => h.not_seated hi ⟨hc, hmem⟩
    refine ⟨p, _, h.change hch ?_ ?_ ?_ ?_ ?_, hch, hck, hout, by simp, .inr ⟨c, hc, rfl⟩⟩
    · exact List.nodup_append.mpr ⟨h.nodup p c hc, by simp, by
        intro a ha b hb heq
        obtain rfl : b = i := by simpa using hb
        exact hnot (heq ▸ ha)⟩
    · intro j hj q d hd
      rcases List.mem_append.mp hj with hj | hj
      · exact h.apart j q p d c hd ⟨hc, hj⟩
      · obtain rfl : j = i := by simpa using hj
        exact absurd hd (h.not_seated hi)
    · intro key' hlook
      obtain ⟨d, hd, hdk, hdout⟩ := h.entry key' p hlook
      obtain rfl : c = d := Option.some.inj (hc.symm.trans hd)
      exact ⟨hdk, hdout⟩
    · intro _ _
      exact hck ▸ hkey
    · intro _ _
      simp
  | none =>
    have hch : Changed g
        { calls := g.calls ++ [{ key := key, line := [i] }]
          current := (key, g.calls.length) :: g.current }
        g.calls.length { key := key, line := [i] } := by
      refine ⟨by simp, fun q hq => ?_, fun key' q hq => ?_⟩
      · rw [List.getElem?_append]
        by_cases hlt : q < g.calls.length
        · rw [if_pos hlt]
        · rw [if_neg hlt, List.getElem?_eq_none (by simp; omega),
            List.getElem?_eq_none (by omega)]
      · rw [List.lookup_cons]
        by_cases heq : key' = key
        · subst heq
          simp [hkey, Ne.symm hq]
        · have hne : (key' == key) = false := beq_false_of_ne heq
          rw [hne]
    refine ⟨g.calls.length, _, h.change hch (by simp) ?_ ?_ ?_ ?_, hch, rfl, rfl, by simp,
      .inl ⟨by simp, rfl⟩⟩
    · intro j hj q d hd
      obtain rfl : j = i := by simpa using hj
      exact absurd hd (h.not_seated hi)
    · intro key' hlook
      dsimp only at hlook ⊢
      rw [List.lookup_cons] at hlook
      by_cases heq : key' = key
      · exact ⟨heq.symm, rfl⟩
      · have hne : (key' == key) = false := beq_false_of_ne heq
        rw [hne] at hlook
        obtain ⟨d, hd, -, -⟩ := h.entry key' _ hlook
        simp at hd
    · intro _ _
      simp
    · intro hrun
      cases hrun

/-- **Beginning.** The head of a line begins to run. -/
theorem start (h : g.Orderly) (hc : g.calls[p]? = some c) (hhead : c.line.head? = some i) :
    (g.start i).Orderly ∧ Changed g (g.start i) p { c with running := true } := by
  have hmem : i ∈ c.line := List.mem_of_head? hhead
  have hstart : g.start i = g.update p fun c => { c with running := true } := by
    rw [Group.start, h.seat_eq_some ⟨hc, hmem⟩]
  have hch := changed_update hc fun c => { c with running := true }
  rw [hstart]
  refine ⟨h.change hch (h.nodup p c hc) ?_ ?_ ?_ ?_, hch⟩
  · intro j hj q d hd
    exact h.apart j q p d c hd ⟨hc, hj⟩
  · intro key hlook
    obtain ⟨d, hd, hdk, hdout⟩ := h.entry key p hlook
    obtain rfl : c = d := Option.some.inj (hc.symm.trans hd)
    exact ⟨hdk, hdout⟩
  · exact h.opened p c hc
  · intro _ _
    exact List.ne_nil_of_mem hmem

/-- A line is not empty when somebody behind its head has left. -/
lemma erase_ne_nil {line : List Caller} (hne : line ≠ []) (hhead : line.head? ≠ some i) :
    line.erase i ≠ [] := by
  cases line with
  | nil => exact absurd rfl hne
  | cons a rest =>
    have hai : (a == i) = false := beq_false_of_ne fun heq => hhead (by rw [heq]; rfl)
    rw [List.erase_cons, hai]
    simp

/-- **Leaving.** A caller goes away from its call.

**Proof sketch.** The table loses the entry of the call in two cases. In the first the call is
complete, and then it has no entry. In the second the caller ran alone, so that the line it leaves
is empty and the call needs no entry. -/
theorem leave (h : g.Orderly) (hi : g.Seated i p c) :
    (g.leave i).Orderly ∧ Changed g (g.leave i) p (c.without i) := by
  obtain ⟨hc, hmem⟩ := hi
  have hnodup : (c.without i).line.Nodup := (h.nodup p c hc).erase i
  have halone : ∀ j ∈ (c.without i).line, ∀ q d, g.Seated j q d → q = p := by
    intro j hj q d hd
    exact h.apart j q p d c hd ⟨hc, List.mem_of_mem_erase hj⟩
  have hheld : (c.without i).running = true → (c.without i).output = none →
      (c.without i).line ≠ [] := by
    intro hrun hout
    have hout : c.output = none := hout
    simp only [Call.without, Call.isRunner, Call.isHolder, hout, Bool.and_eq_true,
      Bool.not_eq_true', Option.isNone_none, Bool.true_and] at hrun
    obtain ⟨hrun, hhead⟩ := hrun
    rw [hrun, Bool.true_and] at hhead
    exact erase_ne_nil (List.ne_nil_of_mem hmem) (by simpa using hhead)
  have hch := changed_update hc fun c => c.without i
  rw [Group.leave, h.seat_eq_some ⟨hc, hmem⟩]
  simp only [hc]
  by_cases hrel : g.releases p c i = true
  · have hlook : g.current.lookup c.key = some p := by
      rw [releases, Bool.and_eq_true] at hrel
      simpa using hrel.2
    rw [if_pos hrel]
    have hch' := hch.forget hlook
    refine ⟨h.change hch' hnodup halone ?_ ?_ hheld, hch'⟩
    · intro key hkey
      rw [lookup_forget] at hkey
      by_cases heq : key = c.key
      · rw [if_pos heq] at hkey
        cases hkey
      · rw [if_neg heq] at hkey
        obtain ⟨d, hd, hdk, -⟩ := h.entry key p hkey
        obtain rfl : c = d := Option.some.inj (hc.symm.trans hd)
        exact absurd hdk.symm heq
    · intro hout hline
      have hout : c.output = none := hout
      -- only the runner of a call that is not complete removes the entry, and it was alone
      rw [releases, hout, references, if_pos hlook] at hrel
      simp only [Option.isSome_none, Bool.false_or, Bool.and_eq_true, decide_eq_true_eq] at hrel
      have hlen : c.line.length ≤ 1 := by
        have := hrel.1.2
        omega
      have herase : (c.without i).line.length = c.line.length - 1 := List.length_erase_of_mem hmem
      exact absurd (List.length_eq_zero_iff.mp (by omega)) hline
  · rw [if_neg hrel]
    refine ⟨h.change hch hnodup halone ?_ ?_ hheld, hch⟩
    · intro key hkey
      obtain ⟨d, hd, hdk, hdout⟩ := h.entry key p hkey
      obtain rfl : c = d := Option.some.inj (hc.symm.trans hd)
      exact ⟨hdk, hdout⟩
    · intro hout _
      exact h.opened p c hc hout (List.ne_nil_of_mem hmem)

/-- **Landing.** A caller inside a call that is not complete completes it and leaves; new callers
of the key no longer find the call. -/
theorem land (h : g.Orderly) (hi : g.Seated i p c) (hout : c.output = none) (output : τ) :
    (g.land i output).Orderly ∧
      Changed g (g.land i output) p { c with output := some output, line := c.line.erase i } ∧
      (g.land i output).current.lookup c.key = none := by
  obtain ⟨hc, hmem⟩ := hi
  have hlook : g.current.lookup c.key = some p :=
    h.opened p c hc hout (List.ne_nil_of_mem hmem)
  have hseat : (g.update p fun c => { c with output := some output }).seat? i = some p :=
    (seat_update g p (f := fun c => { c with output := some output }) (fun _ => rfl) i).trans
      (h.seat_eq_some ⟨hc, hmem⟩)
  have hland : g.land i output =
      ((g.update p fun c => { c with output := some output }).update p
        fun c => c.without i).forget c.key := by
    rw [Group.land, h.seat_eq_some ⟨hc, hmem⟩]
    simp only [Group.leave, hseat, calls_update, if_true, hc, Option.map_some]
    have hrel : (g.update p fun c => { c with output := some output }).releases p
        { c with output := some output } i = true := by
      simp [releases, hlook]
    rw [if_pos hrel]
  have hch : Changed g (g.land i output) p
      { c with output := some output, line := c.line.erase i } := by
    rw [hland]
    refine Changed.forget ⟨?_, fun q hq => ?_, fun _ _ _ => Iff.rfl⟩ hlook
    · rw [calls_update, if_pos rfl, calls_update, if_pos rfl, hc]
      simp [Call.without, Call.isRunner, Call.isHolder]
    · rw [calls_update, if_neg hq, calls_update, if_neg hq]
  have hnone : (g.land i output).current.lookup c.key = none := by
    rw [hland, lookup_forget, if_pos rfl]
  refine ⟨h.change hch ((h.nodup p c hc).erase i) ?_ ?_ ?_ ?_, hch, hnone⟩
  · intro j hj q d hd
    exact h.apart j q p d c hd ⟨hc, List.mem_of_mem_erase hj⟩
  · intro key hkey
    rw [hland, lookup_forget] at hkey
    by_cases heq : key = c.key
    · rw [if_pos heq] at hkey
      cases hkey
    · rw [if_neg heq] at hkey
      obtain ⟨d, hd, hdk, -⟩ := h.entry key p hkey
      obtain rfl : c = d := Option.some.inj (hc.symm.trans hd)
      exact absurd hdk.symm heq
  · intro hout
    cases hout
  · intro _ hout
    cases hout

end Orderly

/-! ## Seats and runs -/

/-- A caller is inside the call at a place, which is of a key and has an output or none. -/
def Sits (g : Group τ) (i : Caller) (p : Nat) (key : String) (output : Option τ) : Prop :=
  ∃ c, g.Seated i p c ∧ c.key = key ∧ c.output = output

/-- Nobody is inside a call when nothing has happened. -/
lemma not_sits_empty {i : Caller} {p : Nat} {key : String} {output : Option τ} :
    ¬ ({} : Group τ).Sits i p key output := by
  rintro ⟨c, ⟨hc, -⟩, -⟩
  simp at hc

/-- A caller has begun a run that is not complete. -/
def Runs (g : Group τ) (i : Caller) : Prop := ∃ p c, g.Conducts i p c

/-- A change of one call, seen from the callers inside. -/
lemma Changed.sits_iff {g g' : Group τ} {p q : Nat} {c' : Call τ} (h : Changed g g' p c')
    {w : Caller} {key : String} {output : Option τ} :
    g'.Sits w q key output ↔
      (q = p ∧ w ∈ c'.line ∧ c'.key = key ∧ c'.output = output) ∨
        (q ≠ p ∧ g.Sits w q key output) := by
  constructor
  · rintro ⟨d, hd, hk, ho⟩
    rcases h.seated_iff.mp hd with ⟨hq, rfl, hw⟩ | ⟨hq, hd⟩
    · exact .inl ⟨hq, hw, hk, ho⟩
    · exact .inr ⟨hq, d, hd, hk, ho⟩
  · rintro (⟨hq, hw, hk, ho⟩ | ⟨hq, d, hd, hk, ho⟩)
    · exact ⟨c', h.seated_iff.mpr (.inl ⟨hq, rfl, hw⟩), hk, ho⟩
    · exact ⟨d, h.seated_iff.mpr (.inr ⟨hq, hd⟩), hk, ho⟩

/-- A change of one call, seen from the callers that run. -/
lemma Changed.runs_iff {g g' : Group τ} {p : Nat} {c' : Call τ} (h : Changed g g' p c')
    {w : Caller} :
    g'.Runs w ↔ (c'.line.head? = some w ∧ c'.running = true ∧ c'.output = none) ∨
      ∃ q d, q ≠ p ∧ g.Conducts w q d := by
  constructor
  · rintro ⟨q, d, hd, hrest⟩
    by_cases hq : q = p
    · subst hq
      obtain rfl : c' = d := Option.some.inj (h.here.symm.trans hd)
      exact .inl hrest
    · exact .inr ⟨q, d, hq, (h.elsewhere q hq) ▸ hd, hrest⟩
  · rintro (hrest | ⟨q, d, hq, hd, hrest⟩)
    · exact ⟨p, c', h.here, hrest⟩
    · exact ⟨q, d, (h.elsewhere q hq).trans hd, hrest⟩

/-- The callers inside a call that stays as it is. -/
lemma sits_here_iff {g : Group τ} {p : Nat} {c : Call τ} (hc : g.calls[p]? = some c) {w : Caller}
    {key : String} {output : Option τ} :
    g.Sits w p key output ↔ w ∈ c.line ∧ c.key = key ∧ c.output = output := by
  constructor
  · rintro ⟨d, ⟨hd, hw⟩, hk, ho⟩
    obtain rfl : c = d := Option.some.inj (hc.symm.trans hd)
    exact ⟨hw, hk, ho⟩
  · rintro ⟨hw, hk, ho⟩
    exact ⟨c, ⟨hc, hw⟩, hk, ho⟩

namespace Orderly

variable {g : Group τ} {i w : Caller} {p q : Nat} {c : Call τ} {key : String}
  {output : Option τ}

/-- A caller has one seat. -/
lemma sits_unique (h : g.Orderly) {key' : String} {output' : Option τ}
    (hi : g.Sits i p key output) (hi' : g.Sits i q key' output') :
    p = q ∧ key = key' ∧ output = output' := by
  obtain ⟨c, hc, rfl, rfl⟩ := hi
  obtain ⟨d, hd, rfl, rfl⟩ := hi'
  obtain ⟨rfl, rfl⟩ := h.seated_unique hc hd
  exact ⟨rfl, rfl, rfl⟩

/-- A caller that runs is inside a call that is not complete. -/
lemma sits_of_runs (hi : g.Runs i) : ∃ p key, g.Sits i p key none := by
  obtain ⟨p, c, hc⟩ := hi
  exact ⟨p, c.key, c, hc.seated, rfl, hc.2.2.2⟩

/-- A caller that is inside no call does not run. -/
lemma not_runs_of_not_sits (hi : ∀ p key, ¬ g.Sits i p key none) : ¬ g.Runs i := by
  intro hruns
  obtain ⟨p, key, hs⟩ := sits_of_runs hruns
  exact hi p key hs

/-- A caller that runs is inside no complete call. -/
lemma not_sits_of_runs (h : g.Orderly) (hi : g.Runs i) (v : τ) : ¬ g.Sits i p key (some v) := by
  intro hs
  obtain ⟨q, key', hs'⟩ := sits_of_runs hi
  cases (h.sits_unique hs hs').2.2

/-- The callers inside calls of a key that are not complete are inside the same call. -/
lemma sits_together (h : g.Orderly) (hi : g.Sits i p key none) (hw : g.Sits w q key none) :
    p = q := by
  obtain ⟨c, hc, rfl, hout⟩ := hi
  obtain ⟨d, hd, hk, hdout⟩ := hw
  have hp := h.opened p c hc.1 hout (List.ne_nil_of_mem hc.2)
  have hq := h.opened q d hd.1 hdout (List.ne_nil_of_mem hd.2)
  rw [hk, hp] at hq
  exact Option.some.inj hq

/-- Who runs elsewhere, once the call at a place is set apart. -/
lemma runs_iff (_h : g.Orderly) (hc : g.calls[p]? = some c) :
    g.Runs w ↔ (c.line.head? = some w ∧ c.running = true ∧ c.output = none) ∨
      ∃ q d, q ≠ p ∧ g.Conducts w q d :=
  Changed.runs_iff ⟨hc, fun _ _ => rfl, fun _ _ _ => Iff.rfl⟩

/-- The seats of the others when a caller joins, and its own. -/
lemma sits_join (h : g.Orderly) (hkey : ∀ p key' output, g.Sits i p key' output → key' = key) :
    (∀ w, w ≠ i → ∀ p key' output,
      ((g.join i key).Sits w p key' output ↔ g.Sits w p key' output)) ∧
    ∃ p output, (g.join i key).Sits i p key output ∧
      (output = none ∨ g.Sits i p key output) := by
  cases hs : g.seat? i with
  | some p =>
    obtain ⟨c, hc⟩ := seated_of_seat hs
    obtain rfl : c.key = key := hkey p c.key c.output ⟨c, hc, rfl, rfl⟩
    rw [h.join_of_seated hc]
    exact ⟨fun _ _ _ _ _ => Iff.rfl, p, c.output, ⟨c, hc, rfl, rfl⟩, .inr ⟨c, hc, rfl, rfl⟩⟩
  | none =>
    obtain ⟨p, c', -, hch, hk, ho, hi, hcase⟩ := h.join hs key
    refine ⟨fun w hw q key' output => ?_, p, none, ?_, .inl rfl⟩
    · rw [hch.sits_iff]
      by_cases hq : q = p
      · subst hq
        rcases hcase with ⟨hnone, rfl⟩ | ⟨c, hc, rfl⟩
        · have hnot : ¬ g.Sits w q key' output := by
            rintro ⟨d, hd, -, -⟩
            cases hnone.symm.trans hd.1
          simp [hnot, hw]
        · rw [sits_here_iff hc]
          simp [hw]
      · simp [hq]
    · exact hch.sits_iff.mpr (.inl ⟨rfl, hi, hk, ho⟩)

/-- Joining begins no run. -/
lemma runs_join (h : g.Orderly) : (g.join i key).Runs w ↔ g.Runs w := by
  cases hs : g.seat? i with
  | some p =>
    obtain ⟨c, hc⟩ := seated_of_seat hs
    rw [h.join_of_seated hc]
  | none =>
    obtain ⟨p, c', -, hch, hk, ho, hi, hcase⟩ := h.join hs key
    rw [hch.runs_iff]
    rcases hcase with ⟨hnone, rfl⟩ | ⟨c, hc, rfl⟩
    · constructor
      · rintro (⟨-, hrun, -⟩ | ⟨q, d, -, hd⟩)
        · cases hrun
        · exact ⟨q, d, hd⟩
      · rintro ⟨q, d, hd⟩
        refine .inr ⟨q, d, ?_, hd⟩
        rintro rfl
        cases hnone.symm.trans hd.1
    · rw [h.runs_iff hc]
      refine or_congr_left ?_
      -- a run that has begun has somebody at the head, who stays there
      constructor
      · rintro ⟨hhead, hrun, hout⟩
        have hne : c.line ≠ [] := h.held p c hc hrun hout
        obtain ⟨a, rest, hline⟩ := List.exists_cons_of_ne_nil hne
        refine ⟨?_, hrun, hout⟩
        simpa [hline] using hhead
      · rintro ⟨hhead, hrun, hout⟩
        refine ⟨?_, hrun, hout⟩
        obtain ⟨a, rest, hline⟩ := List.exists_cons_of_ne_nil (h.held p c hc hrun hout)
        simpa [hline] using hhead

/-- Beginning to run changes no seat. -/
lemma sits_start (h : g.Orderly) (hc : g.calls[p]? = some c) (hhead : c.line.head? = some i) :
    (g.start i).Sits w q key output ↔ g.Sits w q key output := by
  obtain ⟨-, hch⟩ := h.start hc hhead
  rw [hch.sits_iff]
  by_cases hq : q = p
  · subst hq
    rw [sits_here_iff hc]
    simp
  · simp [hq]

/-- Beginning to run adds one to those who run. -/
lemma runs_start (h : g.Orderly) (hc : g.calls[p]? = some c) (hhead : c.line.head? = some i)
    (hout : c.output = none) : (g.start i).Runs w ↔ g.Runs w ∨ w = i := by
  obtain ⟨-, hch⟩ := h.start hc hhead
  rw [hch.runs_iff, h.runs_iff hc]
  simp only [hhead, hout, and_true, Option.some.injEq]
  constructor
  · rintro (rfl | hother)
    · exact .inr rfl
    · exact .inl (.inr hother)
  · rintro ((⟨rfl, -⟩ | hother) | rfl)
    · exact .inl rfl
    · exact .inr hother
    · exact .inl rfl

/-- The head of a line after somebody else has left. -/
lemma head_erase {line : List Caller} (hne : line.head? ≠ some i) :
    (line.erase i).head? = line.head? := by
  cases line with
  | nil => rfl
  | cons a rest =>
    have hai : (a == i) = false := beq_false_of_ne fun heq => hne (by rw [heq]; rfl)
    rw [List.erase_cons, hai]
    rfl

/-- Who sits where when a caller has left. -/
lemma sits_leave (h : g.Orderly) :
    (g.leave i).Sits w q key output ↔ w ≠ i ∧ g.Sits w q key output := by
  cases hs : g.seat? i with
  | none =>
    rw [leave_of_outside hs]
    constructor
    · rintro ⟨c, hc, hrest⟩
      refine ⟨?_, c, hc, hrest⟩
      rintro rfl
      exact h.not_seated hs hc
    · exact fun hw => hw.2
  | some p =>
    obtain ⟨c, hc⟩ := seated_of_seat hs
    obtain ⟨-, hch⟩ := h.leave hc
    rw [hch.sits_iff]
    by_cases hq : q = p
    · subst hq
      rw [sits_here_iff hc.1]
      simp only [Call.without, (h.nodup q c hc.1).mem_erase_iff, ne_eq, not_true, false_and,
        or_false, true_and, and_assoc]
    · simp only [hq, false_and, false_or, ne_eq, not_false_eq_true, true_and]
      constructor
      · intro hw
        refine ⟨?_, hw⟩
        rintro rfl
        obtain ⟨d, hd, -, -⟩ := hw
        exact hq (h.seated_unique hd hc).1
      · exact fun hw => hw.2

/-- Who runs when a caller has left. -/
lemma runs_leave (h : g.Orderly) : (g.leave i).Runs w ↔ w ≠ i ∧ g.Runs w := by
  cases hs : g.seat? i with
  | none =>
    rw [leave_of_outside hs]
    constructor
    · rintro ⟨q, d, hd⟩
      refine ⟨?_, q, d, hd⟩
      rintro rfl
      exact h.not_seated hs hd.seated
    · exact fun hw => hw.2
  | some p =>
    obtain ⟨c, hc⟩ := seated_of_seat hs
    obtain ⟨-, hch⟩ := h.leave hc
    rw [hch.runs_iff, h.runs_iff hc.1]
    constructor
    · rintro (⟨hhead, hrun, hout⟩ | ⟨q, d, hq, hd⟩)
      · have hout : c.output = none := hout
        simp only [Call.without, Call.isRunner, Call.isHolder, hout, Option.isNone_none,
          Bool.true_and, Bool.and_eq_true, Bool.not_eq_true'] at hrun hhead
        obtain ⟨hrun, hne⟩ := hrun
        rw [hrun, Bool.true_and] at hne
        have hne : c.line.head? ≠ some i := by simpa using hne
        rw [head_erase hne] at hhead
        refine ⟨?_, .inl ⟨hhead, hrun, hout⟩⟩
        rintro rfl
        exact hne hhead
      · refine ⟨?_, .inr ⟨q, d, hq, hd⟩⟩
        rintro rfl
        exact hq (h.seated_unique hd.seated hc).1
    · rintro ⟨hw, ⟨hhead, hrun, hout⟩ | hother⟩
      · have hne : c.line.head? ≠ some i := by
          rw [hhead]
          exact fun heq => hw (Option.some.inj heq)
        refine .inl ⟨(head_erase hne).trans hhead, ?_, hout⟩
        simp [Call.without, Call.isRunner, Call.isHolder, hrun, hne]
      · exact .inr hother

/-- Who sits where when a caller has completed its call. -/
lemma sits_land (h : g.Orderly) (hi : g.Sits i p key none) (v : τ) {key' : String} :
    (g.land i v).Sits w q key' output ↔
      w ≠ i ∧ if q = p then g.Sits w p key' none ∧ output = some v
        else g.Sits w q key' output := by
  obtain ⟨c, hc, rfl, hout⟩ := hi
  obtain ⟨-, hch, -⟩ := h.land hc hout v
  rw [hch.sits_iff]
  by_cases hq : q = p
  · subst hq
    have hsits : g.Sits w q key' none ↔ w ∈ c.line ∧ c.key = key' ∧ c.output = none :=
      sits_here_iff hc.1
    rw [if_pos rfl, hsits]
    simp only [(h.nodup q c hc.1).mem_erase_iff, hout, ne_eq, not_true, false_and, or_false,
      true_and, and_true, and_assoc]
    rw [eq_comm (a := some v)]
  · simp only [hq, false_and, false_or, if_false, ne_eq, not_false_eq_true, true_and]
    constructor
    · intro hw
      refine ⟨?_, hw⟩
      rintro rfl
      obtain ⟨d, hd, -, -⟩ := hw
      exact hq (h.seated_unique hd hc).1
    · exact fun hw => hw.2

/-- Who runs when the caller at the head has completed its call. -/
lemma runs_land (h : g.Orderly) (hc : g.calls[p]? = some c) (hhead : c.line.head? = some i)
    (hout : c.output = none) (v : τ) : (g.land i v).Runs w ↔ w ≠ i ∧ g.Runs w := by
  have hi : g.Seated i p c := ⟨hc, List.mem_of_head? hhead⟩
  obtain ⟨-, hch, -⟩ := h.land hi hout v
  rw [hch.runs_iff, h.runs_iff hc]
  simp only [reduceCtorEq, and_false, false_or, hhead, Option.some.injEq]
  constructor
  · rintro ⟨q, d, hq, hd⟩
    refine ⟨?_, .inr ⟨q, d, hq, hd⟩⟩
    rintro rfl
    exact hq (h.seated_unique hd.seated hi).1
  · rintro ⟨hw, ⟨rfl, -, -⟩ | hother⟩
    · exact absurd rfl hw
    · exact hother

/-- A caller that may begin is the head of a call that is not complete, and has not begun. -/
lemma head_of_start (h : g.Orderly) (hi : g.turn i = .start) :
    ∃ (p : Nat) (c : Call τ), g.calls[p]? = some c ∧ c.line.head? = some i ∧
      c.running = false ∧ c.output = none := by
  cases hs : g.seat? i with
  | none =>
    rw [turn_outside hs] at hi
    cases hi
  | some p =>
    obtain ⟨c, hc⟩ := seated_of_seat hs
    cases hout : c.output with
    | some output =>
      rw [h.turn_collect hc hout] at hi
      cases hi
    | none =>
      by_cases hhead : c.line.head? = some i
      · cases hrun : c.running with
        | true =>
          rw [h.turn_running ⟨hc.1, hhead, hrun, hout⟩] at hi
          cases hi
        | false => exact ⟨p, c, hc.1, hhead, hrun, hout⟩
      · rw [h.turn_wait hc hhead hout] at hi
        cases hi

/-- Nothing lands when a caller that is in no line lands. -/
lemma land_of_outside (hi : g.seat? i = none) (v : τ) : g.land i v = g := by
  rw [Group.land, hi]

/-- A group stays orderly when a caller joins. -/
lemma orderly_join (h : g.Orderly) (i : Caller) (key : String) : (g.join i key).Orderly := by
  cases hs : g.seat? i with
  | some p =>
    obtain ⟨c, hc⟩ := seated_of_seat hs
    rw [h.join_of_seated hc]
    exact h
  | none =>
    obtain ⟨-, -, hg, -⟩ := h.join hs key
    exact hg

/-- A group stays orderly when a caller leaves. -/
lemma orderly_leave (h : g.Orderly) (i : Caller) : (g.leave i).Orderly := by
  cases hs : g.seat? i with
  | some p =>
    obtain ⟨c, hc⟩ := seated_of_seat hs
    exact (h.leave hc).1
  | none =>
    rw [leave_of_outside hs]
    exact h

/-- **What a caller finds.** A caller inside a complete call collects; a caller inside another
call waits behind its head or is the head, which runs or may begin. -/
lemma turn_cases (h : g.Orderly) (hi : g.Sits i p key output) :
    (∃ v, output = some v ∧ g.turn i = .collect v) ∨
      (output = none ∧ g.turn i = .wait ∧ ¬ g.Runs i) ∨
      output = none ∧ ∃ c, g.calls[p]? = some c ∧ c.line.head? = some i ∧ c.key = key ∧
        c.output = none ∧ (g.turn i = .running ∧ g.Runs i ∨ g.turn i = .start ∧ ¬ g.Runs i) := by
  obtain ⟨c, hc, hk, rfl⟩ := hi
  cases hout : c.output with
  | some v => exact .inl ⟨v, rfl, h.turn_collect hc hout⟩
  | none =>
    by_cases hhead : c.line.head? = some i
    · refine .inr (.inr ⟨rfl, c, hc.1, hhead, hk, hout, ?_⟩)
      cases hrun : c.running with
      | true => exact .inl ⟨h.turn_running ⟨hc.1, hhead, hrun, hout⟩, p, c, hc.1, hhead, hrun, hout⟩
      | false =>
        refine .inr ⟨h.turn_start hc.1 hhead hrun hout, ?_⟩
        rintro ⟨q, d, hd⟩
        obtain ⟨-, rfl⟩ := h.seated_unique hd.seated hc
        exact Bool.false_ne_true (hrun.symm.trans hd.2.2.1)
    · refine .inr (.inl ⟨rfl, h.turn_wait hc hhead hout, ?_⟩)
      rintro ⟨q, d, hd⟩
      obtain ⟨-, rfl⟩ := h.seated_unique hd.seated hc
      exact hhead hd.2.1

end Orderly

end Group

end LayeredCache.Flight
