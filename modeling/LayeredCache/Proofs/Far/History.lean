import Mathlib.Data.List.Induction
import LayeredCache.Proofs.Far.MemoryStore

/-!
# What a store in memory remembers

A store in memory drops expired entries when it happens to meet them: all of them before a write,
the one under its key in a look-up, those under its keys in a deletion. None of this shows. What a
key reads as depends on the requests that were made and their answers alone: it is what the last
write that was applied put there, unless the key was deleted since, and as long as the lifetime of
that write lasts.

## Main definitions

* `Occurrence`, `History` — a request with its instant and its answer, and a run of requests.
* `Stands` — what the last applied write of a key put there stands.
* `MemoryStore.Remembers` — the requests to a store are answered as its past says.

## Main results

* `liveAt_answer` — what one request does to what the keys hold.
* `History.recalls_after` — a store holds what stands in its past.
* `remembers_after` — so every request is answered as the past says, at all later instants.

## Implementation notes

The past keeps the answers because they say which conditional writes were applied.
-/

set_option autoImplicit false

namespace LayeredCache.Far

/-! ## Histories -/

/-- A request with the instant at which it was made and the answer that it got. -/
structure Occurrence where
  now : Instant
  request : Request
  answer : Answer request

/-- A store in memory and what happened to it since it was empty. -/
structure History where
  store : MemoryStore := {}
  past : List Occurrence := []

/-- One more request. -/
def History.step (h : History) (call : Instant × Request) : History where
  store := (FarStore.answer h.store call.1 call.2).2
  past := h.past ++ [⟨call.1, call.2, (FarStore.answer h.store call.1 call.2).1⟩]

/-- What some requests to an empty store make of it, the earliest first. -/
def history (calls : List (Instant × Request)) : History := calls.foldl .step {}

/-- An occurrence after which a key may hold something else: a write that was applied, or a
deletion. -/
inductive Occurrence.Changes (key : String) : Occurrence → Prop
  | written (now : Instant) (condition : Condition) (data : Bytes) (ttl : Span) :
    Changes key ⟨now, .write condition key data ttl, .reply true⟩
  | deleted (now : Instant) (keys : List String) (answer : Answer (.delete keys))
      (named : key ∈ keys) : Changes key ⟨now, .delete keys, answer⟩

/-- The last write of a key that was applied was at the instant `since` and put `data` there for
the lifetime `ttl`, and the key was not deleted afterwards. -/
def Stands (past : List Occurrence) (key : String) (data : Bytes) (since : Instant)
    (ttl : Span) : Prop :=
  ∃ before condition after,
    past = before ++ ⟨since, .write condition key data ttl, .reply true⟩ :: after ∧
      ∀ e ∈ after, ¬ e.Changes key

section Stands

variable {past : List Occurrence} {e : Occurrence} {key : String} {data : Bytes} {since : Instant}
  {ttl : Span}

/-- Nothing stands before the first request. -/
lemma not_stands_nil : ¬ Stands [] key data since ttl := by
  rintro ⟨before, condition, after, hpast, -⟩
  simp at hpast

/-- **One more occurrence**: what stood before stands if the occurrence does not change the key, and
a write that is applied stands. -/
lemma stands_snoc : Stands (past ++ [e]) key data since ttl ↔
    (Stands past key data since ttl ∧ ¬ e.Changes key) ∨
      ∃ condition, e = ⟨since, .write condition key data ttl, .reply true⟩ := by
  constructor
  · rintro ⟨before, condition, after, hpast, hafter⟩
    rcases List.eq_nil_or_concat after with rfl | ⟨after', last, rfl⟩
    · obtain ⟨-, hlast⟩ := List.append_inj' hpast rfl
      exact .inr ⟨condition, List.singleton_inj.mp hlast⟩
    · rw [List.concat_eq_append, ← List.cons_append, ← List.append_assoc] at hpast
      obtain ⟨hbefore, hlast⟩ := List.append_inj' hpast rfl
      obtain rfl := List.singleton_inj.mp hlast
      refine .inl ⟨⟨before, condition, after', hbefore, fun e' he' => ?_⟩, ?_⟩
      · exact hafter e' (by simp [he'])
      · exact hafter e (by simp)
  · rintro (⟨⟨before, condition, after, rfl, hafter⟩, he⟩ | ⟨condition, rfl⟩)
    · refine ⟨before, condition, after ++ [e], by simp, ?_⟩
      intro e' he'
      rcases List.mem_append.mp he' with he' | he'
      · exact hafter e' he'
      · obtain rfl := List.mem_singleton.mp he'
        exact he
    · exact ⟨past, condition, [], rfl, by simp⟩

end Stands

/-! ## One request -/

/-- What is expired stays expired. -/
lemma Held.isExpired_mono {h : Held} {now t : Instant} (hle : now ≤ t)
    (hexpired : h.isExpired now = true) : h.isExpired t = true := by
  unfold Held.isExpired at hexpired ⊢
  cases hd : h.deadline with
  | none =>
    rw [hd] at hexpired
    cases hexpired
  | some instant =>
    rw [hd, Option.any_some, decide_eq_true_iff] at hexpired
    rw [Option.any_some, decide_eq_true_iff]
    exact Nat.le_trans hexpired hle

namespace MemoryStore

variable {s s' : MemoryStore} {now t : Instant} {key : String} {condition : Condition}
  {data : Bytes} {ttl : Span}

/-- Taking expired entries away now changes nothing of what is live later. -/
lemma liveAt_of_swept (hle : now ≤ t) (h : s'.entries[key]? = s.liveAt now key) :
    s'.liveAt t key = s.liveAt t key := by
  rw [liveAt, h, liveAt, liveAt, Option.filter_filter]
  cases he : s.entries[key]? with
  | none => rfl
  | some held =>
    by_cases hexpired : held.isExpired t = true
    · simp [Option.filter, hexpired]
    · have hfresh : held.isExpired now = false := by
        by_contra hold
        exact hexpired (Held.isExpired_mono hle (by simpa using hold))
      simp [Option.filter, hexpired, hfresh]

/-- **A request that does not change a key** leaves what is live under it, now and later. -/
lemma liveAt_answer (hle : now ≤ t) {request : Request}
    (hsame : ¬ Occurrence.Changes key ⟨now, request, (FarStore.answer s now request).1⟩) :
    (FarStore.answer s now request).2.liveAt t key = s.liveAt t key := by
  cases request with
  | ping => rfl
  | delete keys =>
    have hkey : key ∉ keys := fun hkey => hsame (.deleted now keys _ hkey)
    refine congrArg (Option.filter _) ((entries_delete s keys key).trans (if_neg hkey))
  | get k =>
    rw [answer_get_snd]
    by_cases hk : key = k
    · exact liveAt_of_swept hle ((entries_get s now k key).trans (by rw [if_pos hk, hk]))
    · exact congrArg (Option.filter _) ((entries_get s now k key).trans (if_neg hk))
  | write condition k data ttl =>
    rcases s.entries_answer_write now condition k data ttl key with hentries | ⟨happlied, rfl⟩
    · exact liveAt_of_swept hle hentries
    · rw [happlied] at hsame
      exact absurd (.written now condition data ttl) hsame

/-- An entry is live while its lifetime lasts. -/
lemma liveAt_eq_some_iff_of_entry {since : Instant} {held : Held}
    (he : s.entries[key]? = some ⟨data, if ttl = 0 then none else some (since + ttl)⟩) :
    s.liveAt t key = some held ↔
      held = ⟨data, if ttl = 0 then none else some (since + ttl)⟩ ∧
        (ttl = 0 ∨ t < since + ttl) := by
  rw [liveAt, he, Option.filter_eq_some_iff, Option.some.injEq, eq_comm]
  refine and_congr_right ?_
  rintro rfl
  by_cases httl : ttl = 0
  · simp [Held.isExpired, httl]
  · simp [Held.isExpired, httl]

/-- **A write whose deadline can be represented** gives its key the new entry, if its condition
allows it, and nothing else changes. -/
lemma liveAt_answer_write (s : MemoryStore) (key : String) (condition : Condition) (data : Bytes)
    (hrep : Representable now ttl) (hle : now ≤ t) (k : String) :
    (FarStore.answer s now (.write condition key data ttl)).2.liveAt t k =
      if allows condition (s.liveAt now key).isSome = true ∧ k = key then
        if ttl = 0 ∨ t < now + ttl then
          some ⟨data, if ttl = 0 then none else some (now + ttl)⟩ else none
      else s.liveAt t k := by
  have hanswer : (FarStore.answer s now (.write condition key data ttl)).1 =
      .reply (allows condition (s.liveAt now key).isSome) := answer_write_of_representable hrep
  by_cases hwritten : allows condition (s.liveAt now key).isSome = true ∧ k = key
  · obtain ⟨hallows, rfl⟩ := hwritten
    rw [hallows] at hanswer
    have hentry := entry_of_applied hanswer
    rw [if_pos ⟨hallows, rfl⟩]
    by_cases hlasts : ttl = 0 ∨ t < now + ttl
    · rw [if_pos hlasts]
      exact (liveAt_eq_some_iff_of_entry hentry).mpr ⟨rfl, hlasts⟩
    · rw [if_neg hlasts]
      exact Option.eq_none_iff_forall_ne_some.mpr fun held hheld =>
        hlasts ((liveAt_eq_some_iff_of_entry hentry).mp hheld).2
  · rw [if_neg hwritten]
    refine liveAt_answer hle fun hchanges => hwritten ?_
    generalize hanswered : (FarStore.answer s now (.write condition key data ttl)).1 = answer
      at hchanges hanswer
    cases hchanges
    exact ⟨(Answer.reply.inj hanswer).symm, rfl⟩

end MemoryStore

/-! ## A run of requests -/

/-- From the instant `now` on, the keys hold what stands in the past, for as long as the lifetimes
last. -/
def History.Recalls (h : History) (now : Instant) : Prop :=
  ∀ t, now ≤ t → ∀ key held, h.store.liveAt t key = some held ↔
    ∃ data since ttl, Stands h.past key data since ttl ∧
      held = ⟨data, if ttl = 0 then none else some (since + ttl)⟩ ∧ (ttl = 0 ∨ t < since + ttl)

namespace History

variable {h : History} {now : Instant}

/-- **One request**: a store that holds what stands in its past still does.

**Proof sketch.** By whether the request changes the key. If it does not, both what is live
(`MemoryStore.liveAt_answer`) and what stands stay. A write that is applied makes the new entry, and
this is what stands; after a deletion nothing is live and nothing stands. -/
lemma Recalls.step (hh : h.Recalls now) {call : Instant × Request} (hle : now ≤ call.1) :
    (h.step call).Recalls call.1 := by
  intro t ht key held
  obtain ⟨instant, request⟩ := call
  by_cases hchanges :
      Occurrence.Changes key ⟨instant, request, (FarStore.answer h.store instant request).1⟩
  · -- what the key holds now is what this request makes of it
    simp only [History.step, stands_snoc, hchanges, not_true_eq_false, and_false, false_or]
    generalize hanswer : (FarStore.answer h.store instant request).1 = answer at hchanges ⊢
    cases hchanges with
    | written _ condition data ttl =>
      rw [MemoryStore.liveAt_eq_some_iff_of_entry (MemoryStore.entry_of_applied hanswer)]
      constructor
      · rintro ⟨rfl, hlasts⟩
        exact ⟨data, instant, ttl, ⟨condition, rfl⟩, rfl, hlasts⟩
      · rintro ⟨data', since, ttl', ⟨condition', he⟩, rfl, hlasts⟩
        cases he
        exact ⟨rfl, hlasts⟩
    | deleted _ keys _ named =>
      have hgone : (h.store.delete keys).liveAt t key = none := by
        rw [MemoryStore.liveAt, MemoryStore.entries_delete, if_pos named]
        rfl
      refine iff_of_false (fun hlive => ?_) ?_
      · cases hgone.symm.trans hlive
      · rintro ⟨_, _, _, ⟨_, he⟩, -⟩
        cases he
  · have hlive : (h.step (instant, request)).store.liveAt t key = h.store.liveAt t key :=
      MemoryStore.liveAt_answer ht hchanges
    rw [hlive, hh t (Nat.le_trans hle ht)]
    -- what stood stands, and this request wrote nothing
    have hstands : ∀ data since ttl,
        Stands (h.step (instant, request)).past key data since ttl ↔
          Stands h.past key data since ttl := by
      intro data since ttl
      refine stands_snoc.trans ⟨?_, fun hs => .inl ⟨hs, hchanges⟩⟩
      rintro (⟨hs, -⟩ | ⟨condition, he⟩)
      · exact hs
      · exact absurd (he ▸ .written since condition data ttl) hchanges
    simp only [hstands]

/-- **A run of requests** at instants that do not decrease: the store holds what stands in the
past.

**Proof sketch.** Induction on the requests from the last one; each keeps this
(`History.Recalls.step`). -/
lemma recalls_after (calls : List (Instant × Request)) (now : Instant)
    (hordered : calls.Pairwise (·.1 ≤ ·.1)) (hnow : ∀ call ∈ calls, call.1 ≤ now) :
    (history calls).Recalls now := by
  induction calls using List.reverseRecOn generalizing now with
  | nil =>
    intro t _ key held
    refine iff_of_false (fun hlive => ?_) ?_
    · simp [history, MemoryStore.liveAt] at hlive
    · rintro ⟨data, since, ttl, hstands, -⟩
      exact not_stands_nil hstands
  | append_singleton calls call ih =>
    rw [List.pairwise_append] at hordered
    have hle : ∀ c ∈ calls, c.1 ≤ call.1 := fun c hc => hordered.2.2 c hc call (by simp)
    have hstep := (ih call.1 hordered.1 hle).step (Nat.le_refl call.1)
    have hlast : call.1 ≤ now := hnow call (by simp)
    rw [history, List.foldl_append, List.foldl_cons, List.foldl_nil]
    exact fun t ht => hstep t (Nat.le_trans hlast ht)

end History

/-! ## What requests are answered with -/

/-- At the instant `now`, a store with a past answers requests as the past says. -/
structure Remembers (h : History) (now : Instant) : Prop where
  /-- A look-up finds what stands, while its lifetime lasts. -/
  found : ∀ key data, (FarStore.answer h.store now (.get key)).1 = .reply data ↔
    ∃ since ttl, Stands h.past key data since ttl ∧ (ttl = 0 ∨ now < since + ttl)
  /-- It fails otherwise, and in no other way. -/
  missing : ∀ key, (FarStore.answer h.store now (.get key)).1 = .failure .missing ↔
    ¬ ∃ data since ttl, Stands h.past key data since ttl ∧ (ttl = 0 ∨ now < since + ttl)
  /-- A write without a condition is applied. -/
  always : ∀ key data ttl, MemoryStore.Representable now ttl →
    (FarStore.answer h.store now (.write .always key data ttl)).1 = .reply true
  /-- A write over what is there is applied when a look-up would find something, else refused. -/
  ifPresent : ∀ key data ttl, MemoryStore.Representable now ttl →
    ((FarStore.answer h.store now (.write .ifPresent key data ttl)).1 = .reply true ↔
      ∃ there, (FarStore.answer h.store now (.get key)).1 = .reply there) ∧
    ((FarStore.answer h.store now (.write .ifPresent key data ttl)).1 = .reply false ↔
      (FarStore.answer h.store now (.get key)).1 = .failure .missing)
  /-- A write where nothing is there is applied when a look-up would find nothing, and else
  refused. -/
  ifAbsent : ∀ key data ttl, MemoryStore.Representable now ttl →
    ((FarStore.answer h.store now (.write .ifAbsent key data ttl)).1 = .reply true ↔
      (FarStore.answer h.store now (.get key)).1 = .failure .missing) ∧
    ((FarStore.answer h.store now (.write .ifAbsent key data ttl)).1 = .reply false ↔
      ∃ there, (FarStore.answer h.store now (.get key)).1 = .reply there)
  /-- A write that is not applied changes no live entry. -/
  refused : ∀ condition key data ttl,
    (FarStore.answer h.store now (.write condition key data ttl)).1 ≠ .reply true →
      ∀ t, now ≤ t → ∀ k,
        (FarStore.answer h.store now (.write condition key data ttl)).2.liveAt t k =
          h.store.liveAt t k
  /-- A sweep leaves the live entries where they are. -/
  sweep : ∀ k held, h.store.liveAt now k = some held →
    (h.store.sweep now).entries[k]? = some held
  /-- After a write there is no expired entry. -/
  swept : ∀ condition key data ttl (k : String) (held : Held),
    (FarStore.answer h.store now (.write condition key data ttl)).2.entries[k]? = some held →
      held.isExpired now = false

/-- **A store in memory remembers its past.** After any requests at instants that do not decrease,
a look-up finds what the last applied write of the key put there, if the key was not deleted since
and the lifetime of that write lasts, and finds nothing otherwise; a conditional write is applied
exactly when a look-up says what it asks for, and changes no live entry when it is refused; a sweep
removes no live entry, and a write leaves no expired one.

**Proof sketch.** The store holds what stands in the past (`History.recalls_after`), and each
request is answered by what the store holds. -/
theorem remembers_after (calls : List (Instant × Request)) (now : Instant)
    (hordered : calls.Pairwise (·.1 ≤ ·.1)) (hnow : ∀ call ∈ calls, call.1 ≤ now) :
    Remembers (history calls) now := by
  have hrecalls := History.recalls_after calls now hordered hnow now (Nat.le_refl now)
  generalize history calls = h at hrecalls ⊢
  have hfound : ∀ key data, (FarStore.answer h.store now (.get key)).1 = .reply data ↔
      ∃ since ttl, Stands h.past key data since ttl ∧ (ttl = 0 ∨ now < since + ttl) := by
    intro key data
    simp only [MemoryStore.answer_get_eq_reply_iff, hrecalls]
    constructor
    · rintro ⟨_, ⟨data', since, ttl, hstands, rfl, hlasts⟩, rfl⟩
      exact ⟨since, ttl, hstands, hlasts⟩
    · rintro ⟨since, ttl, hstands, hlasts⟩
      exact ⟨_, ⟨data, since, ttl, hstands, rfl, hlasts⟩, rfl⟩
  have hsome : ∀ key, (h.store.liveAt now key).isSome = true ↔
      ∃ there, (FarStore.answer h.store now (.get key)).1 = .reply there := by
    intro key
    simp only [MemoryStore.answer_get_eq_reply_iff, Option.isSome_iff_exists]
    exact ⟨fun ⟨held, hh⟩ => ⟨held.data, held, hh, rfl⟩, fun ⟨_, held, hh, _⟩ => ⟨held, hh⟩⟩
  have hnone : ∀ key, (h.store.liveAt now key).isSome = false ↔
      (FarStore.answer h.store now (.get key)).1 = .failure .missing := by
    intro key
    rw [MemoryStore.answer_get_eq_missing_iff, Option.isSome_eq_false_iff,
      Option.isNone_iff_eq_none]
  refine ⟨hfound, fun key => ?_, fun key data ttl hrep => ?_, fun key data ttl hrep => ?_,
    fun key data ttl hrep => ?_, fun condition key data ttl hrefused t ht k => ?_,
    fun k held hh => (h.store.entries_sweep now k).trans hh,
    fun condition key data ttl k held hh => ?_⟩
  · rw [← hnone, Bool.eq_false_iff, ne_eq, hsome]
    simp only [hfound]
  · exact MemoryStore.answer_write_of_representable hrep
  · rw [MemoryStore.answer_write_of_representable hrep, ← hsome, ← hnone]
    simp [MemoryStore.allows]
  · rw [MemoryStore.answer_write_of_representable hrep, ← hsome, ← hnone]
    simp [MemoryStore.allows]
  · rcases h.store.entries_answer_write now condition key data ttl k with hsame | ⟨happlied, -⟩
    · exact MemoryStore.liveAt_of_swept ht hsame
    · exact absurd happlied hrefused
  · rcases h.store.entries_answer_write now condition key data ttl k with hsame | ⟨happlied, rfl⟩
    · have hlive := (Option.filter_eq_some_iff.mp (hsame.symm.trans hh)).2
      simpa using hlive
    · rw [MemoryStore.entry_of_applied happlied, Option.some.injEq] at hh
      by_cases httl : ttl = 0
      · simp [← hh, httl, Held.isExpired]
      · have hlate : now < now + ttl := Nat.lt_add_of_pos_right (Nat.pos_of_ne_zero httl)
        simp only [← hh, if_neg httl, Held.isExpired, Option.any_some]
        exact decide_eq_false (Nat.not_le.mpr hlate)

/-- A write for five nanoseconds and a look-up. -/
def shortLived : List (Instant × Request) := [(0, .write .always "k" [1] 5), (3, .get "k")]

/-- At the very deadline of its only entry a store does not find it any more. -/
theorem remembers_after_shortLived :
    shortLived.Pairwise (·.1 ≤ ·.1) ∧ (∀ call ∈ shortLived, call.1 ≤ 5) ∧
      Remembers (history shortLived) 5 ∧
      (FarStore.answer (history shortLived).store 5 (.get "k")).1 = .failure .missing := by
  have hordered : shortLived.Pairwise (·.1 ≤ ·.1) := by decide
  have hnow : ∀ call ∈ shortLived, call.1 ≤ 5 := by decide
  have hremembers := remembers_after shortLived 5 hordered hnow
  refine ⟨hordered, hnow, hremembers, (hremembers.missing "k").mpr ?_⟩
  rintro ⟨data, since, ttl, hstands, hlasts⟩
  rcases stands_snoc.mp hstands with ⟨hstands, -⟩ | ⟨_, he⟩
  · rcases stands_snoc.mp hstands with ⟨hstands, -⟩ | ⟨_, he⟩
    · exact not_stands_nil hstands
    · obtain ⟨rfl, hrequest, -⟩ := (Occurrence.mk.injEq ..).mp he
      cases hrequest
      revert hlasts
      decide
  · cases congrArg Occurrence.request he

end LayeredCache.Far
