import Mathlib.Data.List.Induction
import LayeredCache.Proofs.NearTier

/-!
# What the near tier serves

After any calls to a near tier, a key is served with what the last write put there, if the key was
not deleted since and the deadline of that write has not come. The tier may have lost the entry
before that in one way only: it was full, and another key was written.

## Main definitions

* `NearTier.Call`, `NearTier.after` — calls to a tier, and the tier after some calls.
* `NearTier.read` — a look-up at a type.
* `NearTier.Write`, `NearTier.Write.Latest` — the last write of a key that stands in a history.
* `NearTier.Write.Evicted` — another key was written into the full tier and took its place.
* `NearTier.ServesLatest` — what is said of look-ups after a history.

## Main results

* `NearTier.peek_step` — what one call does to the entry under a key that it does not change.
* `NearTier.tracks_after` — the entries of a tier are those of the last writes.
* `NearTier.serves_latest` — so look-ups give what the last writes wrote.
-/

set_option autoImplicit false

namespace LayeredCache.NearTier

open Eviction

/-! ## Histories -/

/-- A call to a near tier. -/
inductive Call where
  /-- Writes a stored form or a native value. -/
  | write (key : String) (content : Content) (ttl : Span)
  | get (key : String)
  | has (key : String)
  | delete (key : String)
  | clear

/-- The tier after a call; a write whose deadline the clock cannot represent changes nothing. -/
def step (t : NearTier) (call : Instant × Call) : NearTier :=
  match call.2 with
  | .write key content ttl => (t.put call.1 key content ttl).getD t
  | .get key => (t.get call.1 key).2
  | .has _ => t
  | .delete key => t.delete key
  | .clear => t.clear

/-- The tier after some calls, the earliest first. -/
def after (t : NearTier) (calls : List (Instant × Call)) : NearTier := calls.foldl step t

/-- Looks a key up and reads what is found at a type. -/
def read (t : NearTier) (now : Instant) (ty : Ty) (key : String) :
    Except Failure (Option Value) :=
  match (t.get now key).1 with
  | none => .error .missing
  | some content => content.read ty

/-- The deadline that a write gets. -/
def deadlineOf (t : NearTier) (now : Instant) (ttl : Span) : Instant :=
  now + jittered t.defaultTtl ttl (t.draws t.drawn)

/-- A call writes or removes a key. -/
inductive Call.Changes (key : String) : Call → Prop
  | write (content : Content) (ttl : Span) : Changes key (.write key content ttl)
  | delete : Changes key (.delete key)
  | clear : Changes key .clear

/-- The clock can represent the deadline of a call, if it writes. -/
def Represents (t : NearTier) (call : Instant × Call) : Prop :=
  ∀ key content ttl, call.2 = .write key content ttl →
    call.1 + (if ttl = 0 then t.defaultTtl else ttl) < Instant.horizon

/-- A write in a history, with what came before and after it. -/
structure Write where
  before : List (Instant × Call)
  since : Instant
  content : Content
  ttl : Span
  later : List (Instant × Call)

namespace Write

/-- The write is one of a key, and the key was neither written nor removed since. -/
structure Latest (w : Write) (calls : List (Instant × Call)) (key : String) : Prop where
  split : calls = w.before ++ (w.since, .write key w.content w.ttl) :: w.later
  stands : ∀ call ∈ w.later, ¬ call.2.Changes key

/-- The instant from which on what was written is expired. -/
def deadline (w : Write) (start : NearTier) : Instant :=
  (start.after w.before).deadlineOf w.since w.ttl

end Write

/-- A call writes another key into a full tier, which drops the entry under `key`. -/
def Evicts (t : NearTier) (call : Instant × Call) (key : String) : Prop :=
  ∃ key' content ttl, call.2 = .write key' content ttl ∧ key' ≠ key ∧
    t.count = t.entries.capacity ∧
    ∃ e, (t.entries.insert key' ⟨content, t.deadlineOf call.1 ttl⟩).1 = some (key, e)

/-- What was written was dropped later, when another key was written into the full tier. -/
def Write.Evicted (w : Write) (start : NearTier) (key : String) : Prop :=
  ∃ mid call rest, w.later = mid ++ call :: rest ∧
    (start.after (w.before ++ (w.since, .write key w.content w.ttl) :: mid)).Evicts call key

/-- What is said of look-ups at the instant `now` after some calls to a tier. -/
structure ServesLatest (start : NearTier) (calls : List (Instant × Call)) (now : Instant) :
    Prop where
  /-- A look-up finds nothing, or reads what the last write of the key wrote before its
  deadline. -/
  served : ∀ ty key, (start.after calls).read now ty key = .error .missing ∨
    ∃ w : Write, w.Latest calls key ∧ now < w.deadline start ∧
      (start.after calls).read now ty key = w.content.read ty
  /-- The deadline of a write comes after it, and within its lifetime. -/
  deadline : ∀ key (w : Write), w.Latest calls key → w.since < w.deadline start ∧
    w.deadline start ≤ w.since + (if w.ttl = 0 then start.defaultTtl else w.ttl)
  /-- A look-up before the deadline of the last write finds nothing only if what was written has
  given way to another key. -/
  lost : ∀ ty key (w : Write), w.Latest calls key → now < w.deadline start →
    (start.after calls).read now ty key = .error .missing → w.Evicted start key
  /-- A key is said to be there exactly when a look-up finds something. -/
  has : ∀ ty key, (start.after calls).has now key = true ↔
    (start.after calls).read now ty key ≠ .error .missing
  /-- A look-up that meets an expired entry removes it, and leaves all others. -/
  expired : ∀ key e, (start.after calls).entries.peek key = some e → e.isLive now = false →
    ∀ k, ((start.after calls).get now key).2.entries.peek k =
      if k = key then none else (start.after calls).entries.peek k

/-! ## Deadlines -/

section Deadlines

variable {t : NearTier} {now : Instant} {ttl : Span}

/-- A positive lifetime stays positive. -/
lemma jittered_pos {defaultTtl ttl : Span} (hdefault : 0 < defaultTtl) (draw : Nat) :
    0 < jittered defaultTtl ttl draw := by
  have hlife : 0 < if ttl = 0 then defaultTtl else ttl := by
    split
    · exact hdefault
    · exact Nat.pos_of_ne_zero ‹_›
  have hrest := Nat.sub_pos_of_lt (Nat.div_lt_self hlife (by decide : 1 < 10))
  exact Nat.lt_of_lt_of_le hrest (le_jittered defaultTtl ttl draw)

/-- The deadline of a write comes after it, and within its lifetime. -/
lemma deadlineOf_bounds (hdefault : 0 < t.defaultTtl) (now : Instant) (ttl : Span) :
    now < t.deadlineOf now ttl ∧
      t.deadlineOf now ttl ≤ now + (if ttl = 0 then t.defaultTtl else ttl) :=
  ⟨Nat.lt_add_of_pos_right (jittered_pos hdefault _),
    Nat.add_le_add_left (jittered_le t.defaultTtl ttl _) now⟩

/-- A write whose deadline can be represented inserts its entry. -/
lemma put_eq_some (hrep : now + (if ttl = 0 then t.defaultTtl else ttl) < Instant.horizon)
    (key : String) (content : Content) :
    t.put now key content ttl = some { t with
      entries := (t.entries.insert key ⟨content, t.deadlineOf now ttl⟩).2
      drawn := t.drawn + 1 } := by
  have hlate : t.deadlineOf now ttl < Instant.horizon :=
    Nat.lt_of_le_of_lt (Nat.add_le_add_left (jittered_le _ _ _) now) hrep
  have hdeadline : deadline? now (jittered t.defaultTtl ttl (t.draws t.drawn)) =
      some (t.deadlineOf now ttl) := if_pos hlate
  unfold put
  dsimp only
  rw [hdeadline, Option.map_some]

end Deadlines

/-! ## One call -/

/-- One more call. -/
lemma after_snoc (start : NearTier) (calls : List (Instant × Call)) (call : Instant × Call) :
    start.after (calls ++ [call]) = (start.after calls).step call := by
  rw [after, List.foldl_append]
  rfl

section Step

variable {t : NearTier} {call : Instant × Call} {key : String}

/-- A call leads from a sound tier to a sound one with the same default lifetime. -/
lemma sound_step (h : t.Sound) (call : Instant × Call) :
    (t.step call).Sound ∧ (t.step call).defaultTtl = t.defaultTtl := by
  obtain ⟨now, call⟩ := call
  cases call with
  | write key content ttl =>
    cases hput : t.put now key content ttl with
    | none =>
      simp only [step, hput, Option.getD_none]
      exact ⟨h, trivial⟩
    | some t' =>
      obtain ⟨hsound, httl, -⟩ := h.put hput
      simp only [step, hput, Option.getD_some]
      exact ⟨hsound, httl⟩
  | get key =>
    obtain ⟨hsound, httl, -⟩ := h.get now key
    exact ⟨hsound, httl⟩
  | has key => exact ⟨h, rfl⟩
  | delete key =>
    obtain ⟨hsound, httl, -⟩ := h.delete key
    exact ⟨hsound, httl⟩
  | clear => exact ⟨Slab.sound_empty _ _ _, rfl⟩

/-- Nothing is left after a tier is cleared. -/
lemma peek_clear (t : NearTier) (key : String) : t.clear.entries.peek key = none := by
  simp [NearTier.clear, Slab.peek, Slab.empty]

/-- The entry that a write gives to its key. -/
lemma peek_step_write (h : t.Sound) {now : Instant} {content : Content} {ttl : Span}
    (hrep : t.Represents (now, .write key content ttl)) :
    (t.step (now, .write key content ttl)).entries.peek key =
      some ⟨content, t.deadlineOf now ttl⟩ := by
  simp only [step, put_eq_some (hrep key content ttl rfl), Option.getD_some]
  exact ((Slab.Sound.insert h key _).peek key).trans (if_pos rfl)

/-- **A call that does not change a key** leaves its entry, unless it is a look-up of the key that
meets an expired entry, or it evicts it. -/
theorem peek_step (h : t.Sound) (hrep : t.Represents call) (hsame : ¬ call.2.Changes key) :
    (t.step call).entries.peek key = t.entries.peek key ∨
      (t.step call).entries.peek key = none ∧
        ((∃ e, t.entries.peek key = some e ∧ e.isLive call.1 = false) ∨ t.Evicts call key) := by
  obtain ⟨now, call⟩ := call
  cases call with
  | has k => exact .inl rfl
  | clear => exact absurd .clear hsame
  | delete k =>
    have hk : key ≠ k := by
      rintro rfl
      exact hsame .delete
    exact .inl (((h.delete k).2.2 key).trans (if_neg hk))
  | get k =>
    obtain ⟨-, -, -, hpeek⟩ := h.get now k
    have hpeek := hpeek key
    by_cases hdead : key = k ∧ (t.entries.peek k).any (fun e => !e.isLive now) = true
    · have hnone := hpeek.trans (if_pos hdead)
      obtain ⟨rfl, hany⟩ := hdead
      cases he : t.entries.peek key with
      | none => simp [he] at hany
      | some e => exact .inr ⟨hnone, .inl ⟨e, rfl, by simpa [he] using hany⟩⟩
    · exact .inl (hpeek.trans (if_neg hdead))
  | write k content ttl =>
    have hk : key ≠ k := by
      rintro rfl
      exact hsame (.write content ttl)
    have hinserted := Slab.Sound.insert h k ⟨content, t.deadlineOf now ttl⟩
    have hpeek := hinserted.peek key
    rw [if_neg hk] at hpeek
    simp only [step, put_eq_some (hrep k content ttl rfl), Option.getD_some]
    cases hdropped : (t.entries.insert k ⟨content, t.deadlineOf now ttl⟩).1 with
    | none => exact .inl (by simpa [hdropped] using hpeek)
    | some e =>
      obtain ⟨key', e⟩ := e
      by_cases hkey : key' = key
      · subst hkey
        obtain ⟨-, hfull⟩ := hinserted.full.mp (by rw [hdropped]; simp)
        exact .inr ⟨by simpa [hdropped] using hpeek,
          .inr ⟨k, content, ttl, rfl, Ne.symm hk, hfull, e, hdropped⟩⟩
      · exact .inl (by simpa [hdropped, hkey] using hpeek)

end Step

/-! ## The last write -/

namespace Write

variable {w : Write} {calls : List (Instant × Call)} {call : Instant × Call} {key : String}

/-- The same write with one more call after it. -/
def extend (w : Write) (call : Instant × Call) : Write := { w with later := w.later ++ [call] }

/-- **One more call**: the last write of a key is the one before if the call does not change the
key, and else the call itself if it writes. -/
lemma latest_snoc : w.Latest (calls ++ [call]) key ↔
    (∃ w' : Write, w'.Latest calls key ∧ ¬ call.2.Changes key ∧ w = w'.extend call) ∨
      call = (w.since, .write key w.content w.ttl) ∧ w.before = calls ∧ w.later = [] := by
  constructor
  · rintro ⟨hsplit, hstands⟩
    rcases List.eq_nil_or_concat w.later with hlater | ⟨later, last, hlater⟩
    · rw [hlater] at hsplit
      obtain ⟨hbefore, hlast⟩ := List.append_inj' hsplit rfl
      exact .inr ⟨List.singleton_inj.mp hlast, hbefore.symm, hlater⟩
    · rw [List.concat_eq_append] at hlater
      rw [hlater, ← List.cons_append, ← List.append_assoc] at hsplit
      obtain ⟨hbefore, hlast⟩ := List.append_inj' hsplit rfl
      obtain rfl := List.singleton_inj.mp hlast
      rw [hlater] at hstands
      refine .inl ⟨{ w with later := later }, ⟨hbefore, fun c hc => ?_⟩, ?_, ?_⟩
      · exact hstands c (List.mem_append_left _ hc)
      · exact hstands call (by simp)
      · rw [extend, ← hlater]
  · rintro (⟨w', ⟨rfl, hstands⟩, hsame, rfl⟩ | ⟨rfl, rfl, hlater⟩)
    · refine ⟨by simp [extend], fun c hc => ?_⟩
      rcases List.mem_append.mp hc with hc | hc
      · exact hstands c hc
      · obtain rfl := List.mem_singleton.mp hc
        exact hsame
    · exact ⟨by rw [hlater], by simp [hlater]⟩

/-- What has given way to another key has done so for good. -/
lemma Evicted.extend {start : NearTier} (h : w.Evicted start key) (call : Instant × Call) :
    (w.extend call).Evicted start key := by
  obtain ⟨mid, c, rest, hlater, hevicts⟩ := h
  exact ⟨mid, c, rest ++ [call], by simp [Write.extend, hlater], hevicts⟩

end Write

/-! ## A run of calls -/

/-- The entries of a tier are those of the last writes, and what is missing of these has expired by
the instant `now` or was evicted. -/
structure Tracks (start : NearTier) (calls : List (Instant × Call)) (now : Instant) : Prop where
  here : ∀ key e, (start.after calls).entries.peek key = some e →
    ∃ w : Write, w.Latest calls key ∧ e = ⟨w.content, w.deadline start⟩
  gone : ∀ key (w : Write), w.Latest calls key → (start.after calls).entries.peek key = none →
    w.deadline start ≤ now ∨ w.Evicted start key

section Run

variable {start : NearTier} {calls : List (Instant × Call)} {call : Instant × Call}
  {now : Instant} {key : String}

/-- Calls lead from a sound tier to a sound one with the same default lifetime. -/
lemma sound_after (h : start.Sound) (calls : List (Instant × Call)) :
    (start.after calls).Sound ∧ (start.after calls).defaultTtl = start.defaultTtl := by
  induction calls using List.reverseRecOn with
  | nil => exact ⟨h, rfl⟩
  | append_singleton calls call ih =>
    obtain ⟨hsound, httl⟩ := sound_step ih.1 call
    rw [after_snoc]
    exact ⟨hsound, httl.trans ih.2⟩

/-- The deadlines that the clock can represent stay the same. -/
lemma Represents.after (hsound : start.Sound) (hrep : start.Represents call)
    (calls : List (Instant × Call)) : (start.after calls).Represents call := by
  unfold Represents
  rw [(sound_after hsound calls).2]
  exact hrep

/-- At most one write of a key is the last one. -/
lemma Write.Latest.unique {w w' : Write} (h : w.Latest calls key) (h' : w'.Latest calls key) :
    w = w' := by
  induction calls using List.reverseRecOn generalizing w w' with
  | nil => simpa using h.split
  | append_singleton calls call ih =>
    rcases latest_snoc.mp h with ⟨u, hu, hsame, rfl⟩ | ⟨hcall, hbefore, hlater⟩
    · rcases latest_snoc.mp h' with ⟨u', hu', -, rfl⟩ | ⟨hcall', -, -⟩
      · rw [ih hu hu']
      · exact absurd (hcall' ▸ .write w'.content w'.ttl) hsame
    · rcases latest_snoc.mp h' with ⟨u', hu', hsame', rfl⟩ | ⟨hcall', hbefore', hlater'⟩
      · exact absurd (hcall ▸ .write w.content w.ttl) hsame'
      · obtain ⟨before, since, content, ttl, later⟩ := w
        obtain ⟨before', since', content', ttl', later'⟩ := w'
        simp only at hcall hbefore hlater hcall' hbefore' hlater'
        cases hcall.symm.trans hcall'
        rw [hbefore, hbefore', hlater, hlater']

/-- A call that does not change a key keeps track of it. -/
lemma Tracks.same (h : Tracks start calls now) (hsound : start.Sound) (hle : now ≤ call.1)
    (hrep : start.Represents call) (hsame : ¬ call.2.Changes key) :
    (∀ e, ((start.after calls).step call).entries.peek key = some e →
      ∃ w : Write, w.Latest (calls ++ [call]) key ∧ e = ⟨w.content, w.deadline start⟩) ∧
    ∀ w : Write, w.Latest (calls ++ [call]) key →
      ((start.after calls).step call).entries.peek key = none →
        w.deadline start ≤ call.1 ∨ w.Evicted start key := by
  have hpeek := peek_step (sound_after hsound calls).1 (hrep.after hsound calls) hsame
  constructor
  · intro e he
    rcases hpeek with hpeek | ⟨hnone, -⟩
    · obtain ⟨w, hw, he⟩ := h.here key e (hpeek.symm.trans he)
      exact ⟨w.extend call, Write.latest_snoc.mpr (.inl ⟨w, hw, hsame, rfl⟩), he⟩
    · cases hnone.symm.trans he
  · intro w hw hnone
    rcases Write.latest_snoc.mp hw with ⟨w, hlatest, -, rfl⟩ | ⟨hcall, -, -⟩
    · rcases hpeek with hpeek | ⟨-, ⟨e, he, hdead⟩ | hevicts⟩
      · refine (h.gone key w hlatest (hpeek.symm.trans hnone)).imp ?_ ?_
        · exact fun hlate => Nat.le_trans hlate hle
        · exact fun hevicted => hevicted.extend call
      · -- the entry that has expired is the one that the last write made
        obtain ⟨w', hlatest', rfl⟩ := h.here key e he
        obtain rfl := hlatest.unique hlatest'
        exact .inl (Nat.le_of_not_lt (of_decide_eq_false hdead))
      · rw [hlatest.split] at hevicts
        exact .inr ⟨w.later, call, [], rfl, hevicts⟩
    · exact absurd (hcall ▸ .write w.content w.ttl) hsame

/-- **One call** keeps track.

**Proof sketch.** By whether the call changes the key. If it does not, the last write stays, and
its entry stays, expires or is evicted (`peek_step`). A write makes the entry of the key, and after
a removal there is neither an entry nor a last write. -/
lemma Tracks.step (h : Tracks start calls now) (hsound : start.Sound) (hle : now ≤ call.1)
    (hrep : start.Represents call) : Tracks start (calls ++ [call]) call.1 := by
  have hbefore := (sound_after hsound calls).1
  have hrep' := hrep.after hsound calls
  -- after a removal of a key there is no last write of it
  have hremoved : ∀ {k : String}, call.2.Changes k →
      (∀ content ttl, call.2 ≠ .write k content ttl) →
        ∀ w : Write, ¬ w.Latest (calls ++ [call]) k := by
    intro k hchanges hnot w hw
    rcases Write.latest_snoc.mp hw with ⟨-, -, hsame, -⟩ | ⟨hcall, -, -⟩
    · exact hsame hchanges
    · exact hnot w.content w.ttl (congrArg Prod.snd hcall)
  refine ⟨fun key e he => ?_, fun key w hw hnone => ?_⟩
  · rw [after_snoc] at he
    by_cases hchanges : call.2.Changes key
    · obtain ⟨instant, call⟩ := call
      cases hchanges with
      | write content ttl =>
        rw [peek_step_write hbefore hrep', Option.some.injEq] at he
        exact ⟨⟨calls, instant, content, ttl, []⟩, ⟨rfl, by simp⟩, he.symm⟩
      | delete =>
        have hnone := ((hbefore.delete key).2.2 key).trans (if_pos rfl)
        cases hnone.symm.trans he
      | clear => cases (peek_clear _ key).symm.trans he
    · exact (h.same hsound hle hrep hchanges).1 e he
  · rw [after_snoc] at hnone
    by_cases hchanges : call.2.Changes key
    · obtain ⟨instant, call⟩ := call
      cases hchanges with
      | write content ttl => cases (peek_step_write hbefore hrep').symm.trans hnone
      | delete => exact absurd hw (hremoved .delete (by simp) w)
      | clear => exact absurd hw (hremoved .clear (by simp) w)
    · exact (h.same hsound hle hrep hchanges).2 w hw hnone

/-- **A run of calls** at instants that do not decrease keeps track. -/
lemma tracks_after (hsound : start.Sound) (hempty : ∀ key, start.entries.peek key = none)
    (hordered : calls.Pairwise (·.1 ≤ ·.1)) (hrep : ∀ call ∈ calls, start.Represents call)
    (hnow : ∀ call ∈ calls, call.1 ≤ now) : Tracks start calls now := by
  induction calls using List.reverseRecOn generalizing now with
  | nil =>
    refine ⟨fun key e he => ?_, fun key w hw => ?_⟩
    · cases (hempty key).symm.trans he
    · simpa using hw.split
  | append_singleton calls call ih =>
    rw [List.pairwise_append] at hordered
    have hle : ∀ c ∈ calls, c.1 ≤ call.1 := fun c hc => hordered.2.2 c hc call (by simp)
    have hbefore : ∀ c ∈ calls, start.Represents c :=
      fun c hc => hrep c (List.mem_append_left _ hc)
    have hstep := (ih hordered.1 hbefore hle).step hsound (Nat.le_refl call.1)
      (hrep call (by simp))
    have hlast : call.1 ≤ now := hnow call (by simp)
    exact { hstep with
      gone := fun key w hw hnone => (hstep.gone key w hw hnone).imp_left (Nat.le_trans · hlast) }

end Run

/-! ## Look-ups -/

section Reads

variable {t : NearTier} {now : Instant} {key : String}

/-- What is read at any type is there or cannot be read; it is never missing. -/
lemma read_ne_missing (ty : Ty) (content : Content) : content.read ty ≠ .error .missing := by
  cases content with
  | stored data =>
    unfold Content.read
    dsimp only
    cases Envelope.decode ty data <;> simp
  | native n =>
    unfold Content.read Native.extract
    dsimp only
    cases n.assign? ty <;> simp

/-- A look-up reads the content of the live entry of the key. -/
lemma read_eq (h : t.Sound) (now : Instant) (ty : Ty) (key : String) :
    t.read now ty key = ((t.entries.peek key).filter fun e => e.isLive now).elim
      (.error .missing) fun e => e.content.read ty := by
  obtain ⟨-, -, hfound, -⟩ := h.get now key
  unfold read
  rw [hfound]
  cases (t.entries.peek key).filter fun e => e.isLive now <;> rfl

/-- A look-up finds nothing exactly when the key has no live entry. -/
lemma read_eq_missing_iff (h : t.Sound) (now : Instant) (ty : Ty) (key : String) :
    t.read now ty key = .error .missing ↔ t.has now key = false := by
  rw [read_eq h, has]
  cases t.entries.peek key with
  | none => simp
  | some e =>
    cases hlive : e.isLive now with
    | false => simp [Option.filter, hlive]
    | true => simpa [Option.filter, hlive] using read_ne_missing ty e.content

end Reads

/-- A new tier is empty, and its default lifetime is positive. -/
lemma withTtl_new {hash : String → UInt64} {draws : Nat → Nat} {size samples : Nat}
    {t : NearTier} (hnew : NearTier.new hash draws size samples = some t) (ttl : Span) :
    (∀ key, (t.withTtl ttl).entries.peek key = none) ∧ 0 < (t.withTtl ttl).defaultTtl := by
  unfold withTtl
  by_cases httl : ttl = 0
  · rw [if_pos httl, defaultTtl_new hnew]
    exact ⟨peek_new hnew, by decide⟩
  · rw [if_neg httl]
    exact ⟨fun key => (peek_new hnew key : t.entries.peek key = none), Nat.pos_of_ne_zero httl⟩

/-- **A near tier serves the latest write** that has not expired, whatever its size, its hash
function, its default lifetime and its random draws. After any calls at instants that do not
decrease, a look-up finds nothing, or reads what the last write of the key wrote at an instant
before its deadline; it finds nothing before that only if what was written has given way to another
key that was written into the full tier. A key is said to be there exactly when a look-up finds
something, and a look-up that meets an expired entry removes this entry alone.

**Proof sketch.** The entries are those of the last writes (`tracks_after`), and a look-up reads the
content of a live entry. -/
theorem serves_latest {hash : String → UInt64} {draws : Nat → Nat} {size samples : Nat}
    {t : NearTier} (hnew : NearTier.new hash draws size samples = some t) (ttl : Span)
    (calls : List (Instant × Call)) (now : Instant) (hordered : calls.Pairwise (·.1 ≤ ·.1))
    (hnow : ∀ call ∈ calls, call.1 ≤ now)
    (hrep : ∀ call ∈ calls, (t.withTtl ttl).Represents call) :
    ServesLatest (t.withTtl ttl) calls now := by
  have hsound : (t.withTtl ttl).Sound := ((Reached.new hnew).withTtl ttl).sound
  obtain ⟨hempty, hdefault⟩ := withTtl_new hnew ttl
  have htracks := tracks_after hsound hempty hordered hrep hnow
  have hafter := (sound_after hsound calls).1
  refine ⟨fun ty key => ?_, fun key w hw => ?_, fun ty key w hw hlate hmissing => ?_,
    fun ty key => ?_, fun key e he hdead k => ?_⟩
  · rw [read_eq hafter]
    cases hlive : (((t.withTtl ttl).after calls).entries.peek key).filter
        fun e => e.isLive now with
    | none => exact .inl rfl
    | some e =>
      obtain ⟨he, hfresh⟩ := Option.filter_eq_some_iff.mp hlive
      obtain ⟨w, hw, rfl⟩ := htracks.here key e he
      exact .inr ⟨w, hw, of_decide_eq_true hfresh, rfl⟩
  · have hbefore := (sound_after hsound w.before).2
    have hbounds := deadlineOf_bounds (hbefore ▸ hdefault) w.since w.ttl
    rwa [hbefore] at hbounds
  · rw [read_eq_missing_iff hafter, has] at hmissing
    refine (htracks.gone key w hw ?_).resolve_left (Nat.not_le_of_lt hlate)
    cases he : ((t.withTtl ttl).after calls).entries.peek key with
    | none => rfl
    | some e =>
      obtain ⟨w', hw', rfl⟩ := htracks.here key e he
      obtain rfl := hw.unique hw'
      rw [he] at hmissing
      exact absurd hlate (of_decide_eq_false hmissing)
  · rw [ne_eq, read_eq_missing_iff hafter, Bool.not_eq_false]
  · obtain ⟨-, -, -, hpeek⟩ := hafter.get now key
    rw [hpeek, he]
    simp [hdead]

/-- Two keys are written for five nanoseconds each, and the first one is looked up. -/
def crowdedOut : List (Instant × Call) :=
  [(0, .write "a" (.stored [7]) 5), (1, .write "b" (.stored [8]) 5), (2, .get "a")]

/-- What a tier for one entry serves after two keys were written. -/
theorem serves_latest_crowdedOut :
    ∃ t, NearTier.new (fun _ => 0) (fun _ => 0) 1 0 = some t ∧ crowdedOut.Pairwise (·.1 ≤ ·.1) ∧
      (∀ call ∈ crowdedOut, call.1 ≤ 3) ∧ (∀ call ∈ crowdedOut, (t.withTtl 0).Represents call) ∧
      ServesLatest (t.withTtl 0) crowdedOut 3 := by
  have hnew : NearTier.new (fun _ => 0) (fun _ => 0) 1 0 =
      some ⟨Slab.empty (fun _ => 0) 1 0, 1, 0, standardTtl, fun _ => 0, 0⟩ := by
    simp [NearTier.new, Slab.new, Slab.sizeLimit]
  have hordered : crowdedOut.Pairwise (·.1 ≤ ·.1) := by decide
  have hnow : ∀ call ∈ crowdedOut, call.1 ≤ 3 := by decide
  refine ⟨_, hnew, hordered, hnow, ?_⟩
  have hrep : ∀ t : NearTier, ∀ call ∈ crowdedOut, t.Represents call := by
    intro t call hcall key content ttl hwrite
    simp only [crowdedOut, List.mem_cons, List.not_mem_nil, or_false] at hcall
    rcases hcall with rfl | rfl | rfl
    · cases hwrite
      exact (by decide : 0 + 5 < Instant.horizon)
    · cases hwrite
      exact (by decide : 1 + 5 < Instant.horizon)
    · cases hwrite
  exact ⟨hrep _, serves_latest hnew 0 crowdedOut 3 hordered hnow (hrep _)⟩

end LayeredCache.NearTier
