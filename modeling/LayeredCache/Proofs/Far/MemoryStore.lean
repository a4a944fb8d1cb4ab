import LayeredCache.Far.MemoryStore
import Mathlib.Tactic.Lemma

/-!
# The far tier in memory as a map with deadlines

The operations of a store in memory, seen through the entry under each key. A read takes away the
entry under its key when that has expired, a write takes away every entry that has; what is left
stays as it is.

## Main definitions

* `MemoryStore.liveAt` — the entry under a key, unless it has expired.

## Main results

* `MemoryStore.get_eq`, `MemoryStore.entries_get` — reading.
* `MemoryStore.write_applied`, `MemoryStore.write_refused`, `MemoryStore.write_crashed` — writing.
* `MemoryStore.entries_delete` — deleting.
* `MemoryStore.answer_write`, `MemoryStore.answer_get_of_live`, `MemoryStore.answer_get_of_gone` —
  the answers to requests.
-/

set_option autoImplicit false

namespace LayeredCache.Far.MemoryStore

variable (s : MemoryStore) (now : Instant) (key : String)

/-- The entry under a key, unless it has expired. -/
def liveAt (s : MemoryStore) (now : Instant) (key : String) : Option Held :=
  (s.entries[key]?).filter fun h => !h.isExpired now

/-- A live entry is an entry. -/
lemma entry_of_liveAt {s : MemoryStore} {now : Instant} {key : String} {h : Held}
    (hlive : s.liveAt now key = some h) : s.entries[key]? = some h :=
  (Option.filter_eq_some_iff.mp hlive).1

/-- An entry that never expires is live. -/
lemma liveAt_of_permanent {s : MemoryStore} {key : String} {h : Held}
    (he : s.entries[key]? = some h) (hdeadline : h.deadline = none) (now : Instant) :
    s.liveAt now key = some h := by
  rw [liveAt, he]
  simp [Held.isExpired, hdeadline]

/-- Sweeping leaves the live entries. -/
lemma entries_sweep (k : String) : (s.sweep now).entries[k]? = s.liveAt now k :=
  Std.HashMap.getElem?_filter'

/-- Looking a key up finds a live entry, and takes an expired one away. -/
lemma live_eq : (s.live now key).1 = s.liveAt now key ∧
    ∀ k, (s.live now key).2.entries[k]? =
      if k = key then s.liveAt now key else s.entries[k]? := by
  unfold live liveAt
  cases he : s.entries[key]? with
  | none =>
    refine ⟨rfl, fun k => ?_⟩
    by_cases hk : k = key
    · rw [if_pos hk, hk]
      exact he
    · rw [if_neg hk]
  | some h =>
    dsimp only
    by_cases hexp : h.isExpired now = true
    · rw [if_pos hexp]
      rw [Option.filter_some_neg (by simp [hexp])]
      refine ⟨rfl, fun k => ?_⟩
      rw [Std.HashMap.getElem?_erase]
      by_cases hk : k = key
      · simp [hk]
      · simp [hk, Ne.symm hk]
    · rw [if_neg hexp, Option.filter_some_pos (by simpa using hexp)]
      refine ⟨rfl, fun k => ?_⟩
      by_cases hk : k = key
      · simp [hk, he]
      · simp [hk]

/-- Reading a key answers with the bytes of its live entry. -/
lemma get_eq : (s.get now key).1 = (s.liveAt now key).map Held.data := by
  rw [← (s.live_eq now key).1]
  rfl

/-- Reading a key takes away its entry when that has expired. -/
lemma entries_get (k : String) : (s.get now key).2.entries[k]? =
    if k = key then s.liveAt now key else s.entries[k]? :=
  (s.live_eq now key).2 k

/-! ## Writing -/

/-- The live entry under a key is found after a sweep, which changes nothing any more. -/
lemma live_sweep : ((s.sweep now).live now key).1 = s.liveAt now key ∧
    ∀ k, ((s.sweep now).live now key).2.entries[k]? = s.liveAt now k := by
  have hlive : (s.sweep now).liveAt now key = s.liveAt now key := by
    rw [liveAt, entries_sweep, liveAt, Option.filter_filter]
    simp
  obtain ⟨hfound, hentries⟩ := (s.sweep now).live_eq now key
  refine ⟨hfound.trans hlive, fun k => ?_⟩
  rw [hentries, hlive, entries_sweep]
  by_cases hk : k = key
  · rw [if_pos hk, hk]
  · rw [if_neg hk]

variable {s now key} {condition : Condition} {data : Bytes} {ttl : Span}

/-- Whether the clock can represent the deadline of an entry; no lifetime has none. -/
def Representable (now : Instant) (ttl : Span) : Prop := ttl ≠ 0 → now + ttl < Instant.horizon

/-- **A write is applied** when its condition allows it and its deadline can be represented: the
key has a new entry, and of the others the live ones stay. -/
lemma write_applied (data : Bytes) (hallows : allows condition (s.liveAt now key).isSome = true)
    (hrep : Representable now ttl) :
    (s.write now condition key data ttl).1 = some true ∧
      ∀ k, (s.write now condition key data ttl).2.entries[k]? =
        if k = key then some ⟨data, if ttl = 0 then none else some (now + ttl)⟩
        else s.liveAt now k := by
  obtain ⟨hfound, hentries⟩ := s.live_sweep now key
  unfold write
  dsimp only
  rw [hfound, if_pos hallows]
  by_cases httl : ttl = 0
  · simp only [put, if_pos httl]
    refine ⟨trivial, fun k => ?_⟩
    rw [Std.HashMap.getElem?_insert, hentries]
    by_cases hk : k = key
    · simp [hk]
    · simp [hk, Ne.symm hk]
  · simp only [put, if_neg httl, deadline?, if_pos (hrep httl), Option.map_some]
    refine ⟨trivial, fun k => ?_⟩
    rw [Std.HashMap.getElem?_insert, hentries]
    by_cases hk : k = key
    · simp [hk]
    · simp [hk, Ne.symm hk]

/-- **A write is refused** when its condition does not allow it; the live entries stay. -/
lemma write_refused (data : Bytes) (ttl : Span)
    (hallows : allows condition (s.liveAt now key).isSome = false) :
    (s.write now condition key data ttl).1 = some false ∧
      ∀ k, (s.write now condition key data ttl).2.entries[k]? = s.liveAt now k := by
  obtain ⟨hfound, hentries⟩ := s.live_sweep now key
  unfold write
  dsimp only
  rw [hfound, if_neg (Bool.eq_false_iff.mp hallows)]
  exact ⟨rfl, hentries⟩

/-- **A write has no result** when its condition allows it and its deadline cannot be represented;
the live entries stay. -/
lemma write_crashed (hallows : allows condition (s.liveAt now key).isSome = true)
    (hrep : ¬ Representable now ttl) :
    (s.write now condition key data ttl).1 = none ∧
      ∀ k, (s.write now condition key data ttl).2.entries[k]? = s.liveAt now k := by
  obtain ⟨hfound, hentries⟩ := s.live_sweep now key
  obtain ⟨httl, hlate⟩ : ttl ≠ 0 ∧ ¬ now + ttl < Instant.horizon := by
    simpa [Representable] using hrep
  unfold write
  dsimp only
  rw [hfound, if_pos hallows]
  simp only [put, if_neg httl, deadline?, if_neg hlate, Option.map_none]
  exact ⟨trivial, hentries⟩

/-- A write is applied, or leaves the live entries as they are. -/
lemma write_applied_or (s : MemoryStore) (now : Instant) (condition : Condition) (key : String)
    (data : Bytes) (ttl : Span) :
    ((s.write now condition key data ttl).1 = some true ∧
        ∀ k, (s.write now condition key data ttl).2.entries[k]? =
          if k = key then some ⟨data, if ttl = 0 then none else some (now + ttl)⟩
          else s.liveAt now k) ∨
      ((s.write now condition key data ttl).1 ≠ some true ∧
        ∀ k, (s.write now condition key data ttl).2.entries[k]? = s.liveAt now k) := by
  cases hallows : allows condition (s.liveAt now key).isSome with
  | false =>
    obtain ⟨hrefused, hentries⟩ := write_refused data ttl hallows
    exact .inr ⟨by simp [hrefused], hentries⟩
  | true =>
    by_cases hrep : Representable now ttl
    · exact .inl (write_applied data hallows hrep)
    · obtain ⟨hcrashed, hentries⟩ : (s.write now condition key data ttl).1 = none ∧ _ :=
        write_crashed hallows hrep
      exact .inr ⟨by simp [hcrashed], hentries⟩

/-- What is there after a write was there before, or is the entry that the write makes. -/
lemma entry_of_write {k : String} {h : Held}
    (hh : (s.write now condition key data ttl).2.entries[k]? = some h) : s.entries[k]? = some h ∨
      k = key ∧ h = ⟨data, if ttl = 0 then none else some (now + ttl)⟩ := by
  rcases s.write_applied_or now condition key data ttl with ⟨-, hentries⟩ | ⟨-, hentries⟩
  · rw [hentries] at hh
    split at hh
    · exact .inr ⟨‹_›, (Option.some.inj hh).symm⟩
    · exact .inl (entry_of_liveAt hh)
  · rw [hentries] at hh
    exact .inl (entry_of_liveAt hh)

/-- **Deleting** takes away the entries under the keys named. -/
lemma entries_delete (s : MemoryStore) (keys : List String) (k : String) :
    (s.delete keys).entries[k]? = if k ∈ keys then none else s.entries[k]? := by
  unfold delete
  dsimp only
  induction keys generalizing s with
  | nil => simp
  | cons key keys ih =>
    rw [List.foldl_cons]
    have hrest := ih ⟨s.entries.erase key⟩
    dsimp only at hrest
    rw [hrest, Std.HashMap.getElem?_erase]
    by_cases hk : k = key
    · simp [hk]
    · simp [hk, Ne.symm hk]

/-! ## Answers to requests -/

/-- A write is answered with what the write tells, and not at all when it tells nothing. -/
lemma answer_write (s : MemoryStore) (now : Instant) (condition : Condition) (key : String)
    (data : Bytes) (ttl : Span) :
    FarStore.answer s now (.write condition key data ttl) =
      ((s.write now condition key data ttl).1.elim .crash fun applied => .reply applied,
        (s.write now condition key data ttl).2) := by
  simp only [FarStore.answer]
  rcases s.write now condition key data ttl with ⟨_ | _, _⟩ <;> rfl

/-- **A write is applied or refused** when its deadline can be represented. -/
lemma answer_write_cases (s : MemoryStore) {now : Instant} {condition : Condition} (key : String)
    (data : Bytes) {ttl : Span} (hrep : Representable now ttl) :
    (∃ s', FarStore.answer s now (.write condition key data ttl) = (.reply true, s') ∧
        ∀ k, s'.entries[k]? =
          if k = key then some ⟨data, if ttl = 0 then none else some (now + ttl)⟩
          else s.liveAt now k) ∨
      ∃ s', condition ≠ .always ∧
        FarStore.answer s now (.write condition key data ttl) = (.reply false, s') ∧
        ∀ k, s'.entries[k]? = s.liveAt now k := by
  rw [answer_write]
  cases hallows : allows condition (s.liveAt now key).isSome with
  | true =>
    obtain ⟨happlied, hentries⟩ := write_applied data hallows hrep
    rw [happlied]
    exact .inl ⟨_, rfl, hentries⟩
  | false =>
    obtain ⟨hrefused, hentries⟩ := write_refused data ttl hallows
    rw [hrefused]
    refine .inr ⟨_, ?_, rfl, hentries⟩
    rintro rfl
    cases hallows

/-- A look-up is answered with the bytes of the live entry, and fails without one. -/
lemma answer_get (s : MemoryStore) (now : Instant) (key : String) :
    FarStore.answer s now (.get key) =
      ((s.liveAt now key).elim (.failure .missing) fun h => .reply h.data, (s.get now key).2) := by
  have hget := s.get_eq now key
  simp only [FarStore.answer]
  cases hg : s.get now key with
  | mk found s' =>
    rw [hg] at hget
    obtain rfl : found = (s.liveAt now key).map Held.data := hget
    cases s.liveAt now key <;> rfl

/-- A look-up leaves the store as reading leaves it. -/
lemma answer_get_snd (s : MemoryStore) (now : Instant) (key : String) :
    (FarStore.answer s now (.get key)).2 = (s.get now key).2 := by
  rw [answer_get]

/-- A look-up of a live entry is answered with its bytes. -/
lemma answer_get_of_live {h : Held} (hlive : s.liveAt now key = some h) :
    FarStore.answer s now (.get key) = (.reply h.data, (s.get now key).2) := by
  rw [answer_get, hlive, Option.elim_some]

/-- A look-up without a live entry fails. -/
lemma answer_get_of_gone (hgone : s.liveAt now key = none) :
    FarStore.answer s now (.get key) = (.failure .missing, (s.get now key).2) := by
  rw [answer_get, hgone, Option.elim_none]

lemma answer_get_eq_reply_iff : (FarStore.answer s now (.get key)).1 = .reply data ↔
    ∃ held, s.liveAt now key = some held ∧ held.data = data := by
  cases hlive : s.liveAt now key with
  | none =>
    rw [answer_get_of_gone hlive]
    simp
  | some held =>
    rw [answer_get_of_live hlive]
    simp

lemma answer_get_eq_missing_iff : (FarStore.answer s now (.get key)).1 = .failure .missing ↔
    s.liveAt now key = none := by
  cases hlive : s.liveAt now key with
  | none =>
    rw [answer_get_of_gone hlive]
    simp
  | some held =>
    rw [answer_get_of_live hlive]
    simp

/-- A write whose deadline can be represented is answered with whether its condition allowed it. -/
lemma answer_write_of_representable (hrep : Representable now ttl) :
    (FarStore.answer s now (.write condition key data ttl)).1 =
      .reply (allows condition (s.liveAt now key).isSome) := by
  rw [answer_write]
  cases hallows : allows condition (s.liveAt now key).isSome with
  | true => rw [(write_applied data hallows hrep).1]; rfl
  | false => rw [(write_refused data ttl hallows).1]; rfl

/-- A write without a condition is never refused. -/
lemma answer_write_always_ne (s : MemoryStore) (now : Instant) (key : String) (data : Bytes)
    (ttl : Span) :
    (FarStore.answer s now (.write .always key data ttl)).1 ≠ .reply false := by
  have hallows : allows .always (s.liveAt now key).isSome = true := rfl
  rw [answer_write]
  by_cases hrep : Representable now ttl
  · rw [(write_applied data hallows hrep).1]
    simp
  · rw [(write_crashed hallows hrep).1]
    simp

/-- Every write leaves the live entries, and beside them its own at most. -/
lemma entries_answer_write (s : MemoryStore) (now : Instant) (condition : Condition)
    (key : String) (data : Bytes) (ttl : Span) (k : String) :
    (FarStore.answer s now (.write condition key data ttl)).2.entries[k]? = s.liveAt now k ∨
      (FarStore.answer s now (.write condition key data ttl)).1 = .reply true ∧ k = key := by
  rw [answer_write]
  rcases s.write_applied_or now condition key data ttl with
    ⟨happlied, hentries⟩ | ⟨-, hentries⟩
  · by_cases hk : k = key
    · rw [happlied]
      exact .inr ⟨rfl, hk⟩
    · exact .inl ((hentries k).trans (if_neg hk))
  · exact .inl (hentries k)

/-- **A write that is applied** gives its key the new entry. -/
lemma entry_of_applied
    (happlied : (FarStore.answer s now (.write condition key data ttl)).1 = .reply true) :
    (FarStore.answer s now (.write condition key data ttl)).2.entries[key]? =
      some ⟨data, if ttl = 0 then none else some (now + ttl)⟩ := by
  rw [answer_write] at happlied ⊢
  rcases s.write_applied_or now condition key data ttl with ⟨-, hentries⟩ | ⟨hnot, -⟩
  · exact (hentries key).trans (if_pos rfl)
  · cases hends : (s.write now condition key data ttl).1 with
    | none =>
      rw [hends] at happlied
      cases happlied
    | some applied =>
      rw [hends] at happlied hnot
      obtain rfl : applied = true := Answer.reply.inj happlied
      exact absurd rfl hnot

end LayeredCache.Far.MemoryStore
