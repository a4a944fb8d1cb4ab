import LayeredCache.NearTier
import LayeredCache.Proofs.Eviction.FiniteMap

/-!
# The near tier as a map with deadlines

The operations of the near tier, seen through the entry under each key. Looking a key up takes
away an entry that has expired; writing gives the key a new entry and may drop one other; every
other entry stays as it is.

## Main definitions

* `NearTier.Sound` — the entries of a tier are sound.
* `NearTier.Reached` — tiers that the operations lead to.

## Main results

* `NearTier.Sound.get`, `NearTier.Sound.put`, `NearTier.Sound.delete` — what the operations do to
  the entry under each key.
* `NearTier.put_eq_none_iff` — when a write has no result.
* `NearTier.Reached.sound` — the operations lead to sound tiers only.
-/

set_option autoImplicit false

namespace LayeredCache.NearTier

open Eviction

/-- The entries of a tier are sound. -/
def Sound (t : NearTier) : Prop := t.entries.Sound

namespace Sound

variable {t t' : NearTier} {now : Instant} {key : String}

/-- **Looking up** answers with the content of a live entry, and takes an expired one away. -/
theorem get (h : t.Sound) (now : Instant) (key : String) :
    (t.get now key).2.Sound ∧ (t.get now key).2.defaultTtl = t.defaultTtl ∧
      (t.get now key).1 = ((t.entries.peek key).filter fun e => e.isLive now).map Entry.content ∧
      ∀ k, (t.get now key).2.entries.peek k =
        if k = key ∧ (t.entries.peek key).any (fun e => !e.isLive now) = true then none
        else t.entries.peek k := by
  obtain ⟨hsound, hanswer, -, -, hpeek⟩ := Slab.Sound.get h key
  cases hget : t.entries.get key with
  | mk found entries =>
    rw [hget] at hsound hanswer hpeek
    dsimp only at hsound hanswer hpeek
    subst hanswer
    unfold NearTier.get
    rw [hget]
    cases hp : t.entries.peek key with
    | none => exact ⟨hsound, rfl, rfl, fun k => by simpa using hpeek k⟩
    | some e =>
      dsimp only
      by_cases hlive : e.isLive now = true
      · rw [if_pos hlive]
        exact ⟨hsound, rfl, by simp [hlive], fun k => by simpa [hlive] using hpeek k⟩
      · rw [if_neg hlive]
        obtain ⟨hremoved, -, -, -, hrest⟩ := hsound.remove key
        have hdead : e.isLive now = false := Bool.eq_false_iff.mpr hlive
        refine ⟨hremoved, rfl, by simp [hdead], fun k => ?_⟩
        simp only [Option.any_some, hdead, Bool.not_false, and_true]
        rw [hrest, hpeek]

/-- Looking up leaves only entries that were there. -/
lemma of_peek_get (h : t.Sound) {k : String} {e : Entry}
    (he : (t.get now key).2.entries.peek k = some e) : t.entries.peek k = some e := by
  obtain ⟨-, -, -, hpeek⟩ := h.get now key
  rw [hpeek] at he
  split at he
  · cases he
  · exact he

/-- **Removing** takes away the entry under the key only. -/
theorem delete (h : t.Sound) (key : String) :
    (t.delete key).Sound ∧ (t.delete key).defaultTtl = t.defaultTtl ∧
      ∀ k, (t.delete key).entries.peek k = if k = key then none else t.entries.peek k := by
  obtain ⟨hsound, -, -, -, hpeek⟩ := Slab.Sound.remove h key
  exact ⟨hsound, rfl, hpeek⟩

/-- **Writing** gives the key a new entry; of the other entries, one at most is dropped. -/
theorem put (h : t.Sound) {content : Content} {ttl : Span}
    (hput : t.put now key content ttl = some t') :
    t'.Sound ∧ t'.defaultTtl = t.defaultTtl ∧
      (∃ deadline, t'.entries.peek key = some ⟨content, deadline⟩) ∧
      ∀ k, k ≠ key → ∀ e, t'.entries.peek k = some e → t.entries.peek k = some e := by
  unfold NearTier.put at hput
  obtain ⟨deadline, -, rfl⟩ := Option.map_eq_some_iff.mp hput
  have hinserted := Slab.Sound.insert h key ⟨content, deadline⟩
  refine ⟨hinserted.sound, rfl, ⟨deadline, ?_⟩, fun k hk e he => ?_⟩
  · exact (hinserted.peek key).trans (if_pos rfl)
  · rw [hinserted.peek k, if_neg hk] at he
    split at he
    · cases he
    · exact he

/-- The entry that a write gives to its key. -/
lemma peek_put (h : t.Sound) {content : Content} {ttl : Span}
    (hput : t.put now key content ttl = some t') : t'.entries.peek key =
      some ⟨content, now + jittered t.defaultTtl ttl (t.draws t.drawn)⟩ := by
  unfold NearTier.put deadline? at hput
  obtain ⟨deadline, hdeadline, rfl⟩ := Option.map_eq_some_iff.mp hput
  obtain ⟨-, hlife⟩ := Option.ite_none_right_eq_some.mp hdeadline
  obtain rfl := Option.some.inj hlife
  exact ((Slab.Sound.insert h key _).peek key).trans (if_pos rfl)

end Sound

/-- What is taken off a lifetime is nothing or one of the random parts. -/
lemma exists_part (defaultTtl ttl : Span) (draw : Nat) :
    ∃ part : Nat, jittered defaultTtl ttl draw = (if ttl = 0 then defaultTtl else ttl) - part ∧
      (part = 0 ∨ part < jitterRange defaultTtl (if ttl = 0 then defaultTtl else ttl)) := by
  unfold jittered
  generalize (if ttl = 0 then defaultTtl else ttl) = life
  dsimp only
  by_cases hzero : jitterRange defaultTtl life = 0
  · exact ⟨0, if_pos hzero, .inl rfl⟩
  · exact ⟨draw % jitterRange defaultTtl life, if_neg hzero,
      .inr (Nat.mod_lt draw (Nat.pos_of_ne_zero hzero))⟩

/-- A lifetime is never longer than the one asked for. -/
lemma jittered_le (defaultTtl ttl : Span) (draw : Nat) :
    jittered defaultTtl ttl draw ≤ if ttl = 0 then defaultTtl else ttl := by
  obtain ⟨part, hpart, -⟩ := exists_part defaultTtl ttl draw
  rw [hpart]
  exact Nat.sub_le _ _

/-- The random parts are below a tenth of the lifetime. -/
lemma jitterRange_le_tenth (defaultTtl ttl : Span) : jitterRange defaultTtl ttl ≤ ttl / 10 := by
  unfold jitterRange
  dsimp only
  split
  · exact Nat.le_trans (Nat.min_le_left _ _) (Nat.min_le_left _ _)
  · exact Nat.min_le_left _ _

/-- A lifetime is shortened by a tenth at most. -/
lemma le_jittered (defaultTtl ttl : Span) (draw : Nat) :
    (if ttl = 0 then defaultTtl else ttl) - (if ttl = 0 then defaultTtl else ttl) / 10 ≤
      jittered defaultTtl ttl draw := by
  obtain ⟨part, hpart, hrandom⟩ := exists_part defaultTtl ttl draw
  rw [hpart]
  refine Nat.sub_le_sub_left ?_ _
  obtain rfl | hlt := hrandom
  · exact Nat.zero_le _
  · exact Nat.le_trans (Nat.le_of_lt hlt) (jitterRange_le_tenth _ _)

/-- A write has no result when the clock cannot represent its deadline. -/
lemma put_eq_none_iff (t : NearTier) (now : Instant) (key : String) (content : Content)
    (ttl : Span) : t.put now key content ttl = none ↔
      Instant.horizon ≤ now + jittered t.defaultTtl ttl (t.draws t.drawn) := by
  unfold put deadline?
  rw [Option.map_eq_none_iff]
  by_cases hlt : now + jittered t.defaultTtl ttl (t.draws t.drawn) < Instant.horizon
  · rw [if_pos hlt]
    exact ⟨fun h => absurd h (by simp), fun h => absurd hlt (Nat.not_lt.mpr h)⟩
  · rw [if_neg hlt]
    exact ⟨fun _ => Nat.not_lt.mp hlt, fun _ => rfl⟩

/-- A write has a result when the clock can represent the deadline of its longest lifetime. -/
lemma put_ne_none {t : NearTier} {now : Instant} {ttl : Span}
    (hrep : now + (if ttl = 0 then t.defaultTtl else ttl) < Instant.horizon) (key : String)
    (content : Content) : t.put now key content ttl ≠ none := by
  intro hnone
  have hle := (put_eq_none_iff t now key content ttl).mp hnone
  have hjit := jittered_le t.defaultTtl ttl (t.draws t.drawn)
  exact absurd (Nat.lt_of_le_of_lt (Nat.le_trans hle (Nat.add_le_add_left hjit now)) hrep)
    (Nat.lt_irrefl _)

/-- A write has no result when the clock cannot represent the deadline of its shortest lifetime. -/
lemma put_eq_none {t : NearTier} {now : Instant} {ttl : Span}
    (hlong : Instant.horizon ≤ (if ttl = 0 then t.defaultTtl else ttl) -
      (if ttl = 0 then t.defaultTtl else ttl) / 10) (key : String) (content : Content) :
    t.put now key content ttl = none := by
  rw [put_eq_none_iff]
  have hjit := le_jittered t.defaultTtl ttl (t.draws t.drawn)
  exact Nat.le_trans (Nat.le_trans hlong hjit) (Nat.le_add_left _ _)

/-- A new tier has no entries. -/
lemma peek_new {hash : String → UInt64} {draws : Nat → Nat} {size samples : Nat} {t : NearTier}
    (h : NearTier.new hash draws size samples = some t) (key : String) :
    t.entries.peek key = none := by
  obtain ⟨entries, hentries, rfl⟩ := Option.map_eq_some_iff.mp h
  exact ((Slab.holds_new hentries).1.lookup key).symm.trans (Finmap.lookup_empty key)

/-- A new tier has the standard lifetime. -/
lemma defaultTtl_new {hash : String → UInt64} {draws : Nat → Nat} {size samples : Nat}
    {t : NearTier} (h : NearTier.new hash draws size samples = some t) :
    t.defaultTtl = standardTtl := by
  obtain ⟨entries, -, rfl⟩ := Option.map_eq_some_iff.mp h
  rfl

/-! ## Tiers that the operations lead to -/

/-- Tiers that come from an empty one by the operations. -/
inductive Reached : NearTier → Prop where
  | new {hash : String → UInt64} {draws : Nat → Nat} {size samples : Nat} {t : NearTier}
      (h : NearTier.new hash draws size samples = some t) : Reached t
  | withTtl {t : NearTier} (h : Reached t) (ttl : Span) : Reached (t.withTtl ttl)
  | get {t : NearTier} (h : Reached t) (now : Instant) (key : String) : Reached (t.get now key).2
  | put {t t' : NearTier} (h : Reached t) {now : Instant} {key : String} {content : Content}
      {ttl : Span} (hput : t.put now key content ttl = some t') : Reached t'
  | delete {t : NearTier} (h : Reached t) (key : String) : Reached (t.delete key)
  | clear {t : NearTier} (h : Reached t) : Reached t.clear

/-- The operations lead to sound tiers only. -/
theorem Reached.sound {t : NearTier} (h : Reached t) : t.Sound := by
  induction h with
  | new h =>
    obtain ⟨entries, hentries, rfl⟩ := Option.map_eq_some_iff.mp h
    exact (Slab.holds_new hentries).1.sound
  | withTtl _ ttl ih =>
    unfold NearTier.withTtl
    split
    · exact ih
    · exact ih
  | get _ now key ih => exact (ih.get now key).1
  | put _ hput ih => exact (ih.put hput).1
  | delete _ key ih => exact (ih.delete key).1
  | clear _ _ => exact Slab.sound_empty _ _ _

end LayeredCache.NearTier
