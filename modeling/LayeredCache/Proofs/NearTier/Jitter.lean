import LayeredCache.Proofs.NearTier
import LayeredCache.Proofs.SplitSpan

/-!
# Jitter

The near tier takes a random part off every lifetime. The part is less than a tenth, and less than
ten seconds where the lifetime reaches the default of the tier, so something of every lifetime is
left. A machine that does this in words never gives up: it draws from a range that is not empty, and
takes off less than there is.

## Main definitions

* `SplitSpan.jitterRange`, `SplitSpan.jittered?` — the random part taken off in machine words.

## Main results

* `NearTier.jitterRange_eq_zero_iff`, `NearTier.jitterRange_le_greatest` — the random parts.
* `SplitSpan.exists_jittered?` — the words hold the lifetime that the tier gives.
* `NearTier.jitter_bounded` — how much of a lifetime is left.
-/

set_option autoImplicit false

namespace LayeredCache

namespace NearTier

/-! ## Random parts -/

variable {defaultTtl ttl : Span}

/-- The range is a tenth of the lifetime, capped where that reaches the default: if a tenth is
nothing the cap makes no difference. -/
lemma jitterRange_eq (defaultTtl ttl : Span) : jitterRange defaultTtl ttl =
    min (if defaultTtl ≤ ttl then min (ttl / 10) greatestJitter else ttl / 10)
      0xffffffffffffffff := by
  unfold jitterRange
  dsimp only
  by_cases hreach : defaultTtl ≤ ttl
  · by_cases hoffset : min (ttl / 10) greatestJitter = 0
    · have htenth : ttl / 10 = 0 := (Nat.min_eq_zero_iff.mp hoffset).resolve_right (by decide)
      rw [if_neg fun h => h.2 hoffset, if_pos hreach, hoffset, htenth]
    · rw [if_pos ⟨hreach, hoffset⟩, if_pos hreach]
  · rw [if_neg fun h => hreach h.1, if_neg hreach]

/-- There are no random parts of a lifetime below ten nanoseconds, and of no other. -/
lemma jitterRange_eq_zero_iff (defaultTtl ttl : Span) :
    jitterRange defaultTtl ttl = 0 ↔ ttl < 10 := by
  have hten : ttl / 10 = 0 ↔ ttl < 10 := Nat.div_eq_zero_iff_lt (by decide)
  have hcap : ¬ greatestJitter = 0 := by decide
  rw [jitterRange_eq, Nat.min_eq_zero_iff, or_iff_left (by decide), ← hten]
  by_cases hreach : defaultTtl ≤ ttl
  · rw [if_pos hreach, Nat.min_eq_zero_iff, or_iff_left hcap]
  · rw [if_neg hreach]

/-- Where a lifetime reaches the default the random parts are capped. -/
lemma jitterRange_le_greatest (h : defaultTtl ≤ ttl) :
    jitterRange defaultTtl ttl ≤ greatestJitter := by
  rw [jitterRange_eq, if_pos h]
  exact Nat.le_trans (Nat.min_le_left _ _) (Nat.min_le_right _ _)

end NearTier

/-! ## Jitter in words -/

namespace SplitSpan

/-- The greatest part that is taken off lifetimes that reach the default. -/
def greatestJitter : SplitSpan := ⟨10, 0, by decide⟩

/-- The length of the range of random parts, in one word. -/
def jitterRange (standard ttl : SplitSpan) : UInt64 :=
  let offset := ttl.tenth.least greatestJitter
  let range := if standard.notAbove ttl && !offset.isZero then offset else ttl.tenth
  narrow range.wide

/-- The number that `draw` selects below a bound; below zero there is none. -/
def select? (bound : UInt64) (draw : Nat) : Option UInt64 :=
  if bound = 0 then none else some (UInt64.ofNat (draw % bound.toNat))

/-- A lifetime without the random part that `draw` selects, where no lifetime stands for the
standard one. There is none if the part is drawn from an empty range, or more than the lifetime. -/
def jittered? (standard ttl : SplitSpan) (draw : Nat) : Option SplitSpan :=
  let ttl := if ttl.isZero then standard else ttl
  let range := jitterRange standard ttl
  if range = 0 then some ttl
  else (select? range draw).bind fun part => ttl.sub? (ofNanos part)

/-- The word holds the length of the range. -/
lemma toNat_jitterRange (standard ttl : SplitSpan) :
    (jitterRange standard ttl).toNat = NearTier.jitterRange standard.total ttl.total := by
  have hoffset : (ttl.tenth.least greatestJitter).total =
      min (ttl.total / 10) NearTier.greatestJitter := by
    rw [total_least, total_tenth]
    rfl
  have hreach : (standard.notAbove ttl && !(ttl.tenth.least greatestJitter).isZero) = true ↔
      standard.total ≤ ttl.total ∧ min (ttl.total / 10) NearTier.greatestJitter ≠ 0 := by
    rw [Bool.and_eq_true, notAbove_iff, Bool.not_eq_true', ← Bool.not_eq_true, isZero_iff, hoffset]
  rw [jitterRange, toNat_narrow, toNat_wide, NearTier.jitterRange]
  by_cases h : (standard.notAbove ttl && !(ttl.tenth.least greatestJitter).isZero) = true
  · rw [if_pos h, if_pos (hreach.mp h), hoffset]
  · rw [if_neg h, if_neg fun h' => h (hreach.mpr h'), total_tenth]

/-- The number that is selected. -/
lemma exists_select? {bound : UInt64} (h : bound.toNat ≠ 0) (draw : Nat) :
    ∃ part, select? bound draw = some part ∧ part.toNat = draw % bound.toNat := by
  have hbound : ¬ bound = 0 := fun hzero => h (hzero ▸ UInt64.toNat_zero)
  refine ⟨_, if_neg hbound, ?_⟩
  rw [UInt64.toNat_ofNat']
  exact Nat.mod_eq_of_lt (Nat.lt_trans (Nat.mod_lt draw (Nat.pos_of_ne_zero h)) bound.toNat_lt)

/-- **The words hold** the lifetime that the tier gives: the range is not empty when a part is drawn
from it, and the part is less than the lifetime. -/
lemma exists_jittered? (standard ttl : SplitSpan) (draw : Nat) :
    ∃ r, jittered? standard ttl draw = some r ∧
      r.total = NearTier.jittered standard.total ttl.total draw := by
  have hlife : (if ttl.isZero then standard else ttl).total =
      if ttl.total = 0 then standard.total else ttl.total := by
    rw [apply_ite total]
    exact if_congr (isZero_iff ttl) rfl rfl
  unfold jittered? NearTier.jittered
  rw [← hlife]
  generalize (if ttl.isZero then standard else ttl) = life
  dsimp only
  rw [← toNat_jitterRange]
  by_cases hzero : jitterRange standard life = 0
  · rw [if_pos hzero, hzero]
    exact ⟨life, rfl, rfl⟩
  · have hrange : (jitterRange standard life).toNat ≠ 0 := fun h => hzero (UInt64.toNat_inj.mp h)
    obtain ⟨part, hpart, hdraw⟩ := exists_select? hrange draw
    have hle : (ofNanos part).total ≤ life.total := by
      rw [total_ofNanos, hdraw]
      have hlt := Nat.mod_lt draw (Nat.pos_of_ne_zero hrange)
      have htenth := NearTier.jitterRange_le_tenth standard.total life.total
      rw [← toNat_jitterRange] at htenth
      exact Nat.le_trans (Nat.le_of_lt hlt) (Nat.le_trans htenth (Nat.div_le_self _ _))
    rw [if_neg hzero, if_neg hrange, hpart, Option.bind_some, ← hdraw, ← total_ofNanos part]
    exact exists_sub? hle

end SplitSpan

/-! ## What is left -/

namespace NearTier

/-- **How much of a lifetime is left.** Some of every lifetime is left, and never more than there
was. Less than a tenth is taken off, nothing of a lifetime below ten nanoseconds, and less than ten
seconds of one that reaches the default. This is so in machine words as well: no step of their
arithmetic gives up, and they hold what the tier computes.

**Proof sketch.** The words hold the lifetime that the tier gives (`SplitSpan.exists_jittered?`).
What is taken off it is nothing or one of the random parts (`exists_part`). -/
theorem jitter_bounded (standard ttl : SplitSpan) (hstandard : standard.total ≠ 0) (draw : Nat) :
    let life := if ttl.total = 0 then standard.total else ttl.total
    ∃ r, SplitSpan.jittered? standard ttl draw = some r ∧
      r.total = jittered standard.total ttl.total draw ∧
      0 < r.total ∧ r.total ≤ life ∧
      (10 ≤ life → life - life / 10 < r.total) ∧
      (10 ≤ life → standard.total ≤ life → life < r.total + greatestJitter) ∧
      (life < 10 → r.total = life) := by
  intro life
  have hlife : 0 < life := by
    refine Nat.pos_of_ne_zero ?_
    dsimp only [life]
    split
    · exact hstandard
    · assumption
  obtain ⟨r, hr, htotal⟩ := SplitSpan.exists_jittered? standard ttl draw
  obtain ⟨part, hpart, hrandom⟩ := exists_part standard.total ttl.total draw
  have hleft : r.total = life - part := htotal.trans hpart
  have hrange : part = 0 ∨ part < jitterRange standard.total life := hrandom
  have htenth : jitterRange standard.total life ≤ life / 10 := jitterRange_le_tenth _ _
  have hnone := jitterRange_eq_zero_iff standard.total life
  clear_value life
  have hless : part < life := by omega
  refine ⟨r, hr, htotal, ?_, ?_, ?_, ?_, ?_⟩
  · rw [hleft]
    exact Nat.sub_pos_of_lt hless
  · rw [hleft]
    exact Nat.sub_le _ _
  · intro hlong
    omega
  · intro hlong hreach
    have hcap : jitterRange standard.total life ≤ greatestJitter := jitterRange_le_greatest hreach
    have hpos : (0 : Nat) < greatestJitter := by decide
    omega
  · intro hshort
    omega

/-- The random parts of the longest lifetimes do not fit a word, and the greatest one that fits is
drawn. -/
theorem jitter_bounded_longest :
    let standard : SplitSpan := ⟨0xffffffffffffffff, 999999999, by decide⟩
    let ttl : SplitSpan := ⟨0xffffffffffffffff, 0, by decide⟩
    standard.total ≠ 0 ∧ 0xffffffffffffffff < ttl.total / 10 ∧
      ∃ r, SplitSpan.jittered? standard ttl 0xfffffffffffffffe = some r ∧
        r.total + 0xfffffffffffffffe = ttl.total ∧ ttl.total - ttl.total / 10 < r.total := by
  intro standard ttl
  have hstandard : standard.total ≠ 0 := by decide
  have hlong : 10 ≤ ttl.total := by decide
  have hpart : jittered standard.total ttl.total 0xfffffffffffffffe + 0xfffffffffffffffe =
      ttl.total := by decide
  obtain ⟨r, hr, htotal, -, -, htenth, -, -⟩ :=
    jitter_bounded standard ttl hstandard 0xfffffffffffffffe
  have hunfit : 0xffffffffffffffff < ttl.total / 10 := by decide
  rw [← htotal] at hpart
  exact ⟨hstandard, hunfit, r, hr, hpart, htenth hlong⟩

end NearTier

end LayeredCache
