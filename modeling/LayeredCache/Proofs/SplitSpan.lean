import LayeredCache.Time
import Mathlib.Tactic.Lemma

/-!
# Spans in machine words

A machine keeps a span as whole seconds in a word of 64 bits and the nanoseconds beyond them in one
of 32 bits. The arithmetic on these words is that of the nanoseconds: no word overflows, and a span
that is taken off a longer one leaves the difference.

## Main definitions

* `SplitSpan` — a span in words; `SplitSpan.total` — its nanoseconds.
* `SplitSpan.tenth`, `SplitSpan.least`, `SplitSpan.sub?`, `SplitSpan.ofNanos` — the arithmetic.
* `SplitSpan.wide`, `SplitSpan.narrow` — the nanoseconds in one word, and in a shorter one.

## Main results

* `SplitSpan.total_tenth`, `SplitSpan.total_least`, `SplitSpan.exists_sub?`,
  `SplitSpan.total_ofNanos` — what the arithmetic does to the nanoseconds.
* `SplitSpan.toNat_wide`, `SplitSpan.toNat_narrow` — what the words hold.
-/

set_option autoImplicit false

namespace LayeredCache

/-- A span in words: whole seconds, and the nanoseconds beyond them. -/
structure SplitSpan where
  seconds : UInt64
  nanos : UInt32
  nanos_lt : nanos.toNat < 1000000000

namespace SplitSpan

/-- The nanoseconds of a span. -/
def total (d : SplitSpan) : Nat := d.seconds.toNat * 1000000000 + d.nanos.toNat

/-! ## Tenths -/

/-- What dividing the seconds and the nanoseconds by ten leaves over, in nanoseconds. -/
def carry (d : SplitSpan) : UInt64 := d.seconds % 10 * 1000000000 + (d.nanos % 10).toUInt64

lemma toNat_carry (d : SplitSpan) :
    d.carry.toNat = d.seconds.toNat % 10 * 1000000000 + d.nanos.toNat % 10 := by
  have hseconds : (d.seconds % 10).toNat = d.seconds.toNat % 10 := rfl
  have hbillion : (1000000000 : UInt64).toNat = 1000000000 := rfl
  have hnanos : (d.nanos % 10).toNat = d.nanos.toNat % 10 := rfl
  rw [carry, UInt64.toNat_add, UInt64.toNat_mul, hseconds, hbillion, UInt32.toNat_toUInt64, hnanos]
  omega

/-- The nanoseconds of a tenth. -/
def tenthNanos (d : SplitSpan) : UInt32 := d.nanos / 10 + (d.carry / 10).toUInt32

lemma toNat_tenthNanos (d : SplitSpan) :
    d.tenthNanos.toNat = (d.seconds.toNat % 10 * 1000000000 + d.nanos.toNat) / 10 := by
  have hlt := d.nanos_lt
  have hnanos : (d.nanos / 10).toNat = d.nanos.toNat / 10 := rfl
  have hcarry : (d.carry / 10).toNat = d.carry.toNat / 10 := rfl
  rw [tenthNanos, UInt32.toNat_add, hnanos, UInt64.toNat_toUInt32, hcarry, toNat_carry]
  omega

/-- A tenth of a span, rounded down to nanoseconds. -/
def tenth (d : SplitSpan) : SplitSpan where
  seconds := d.seconds / 10
  nanos := d.tenthNanos
  nanos_lt := by
    have hlt := d.nanos_lt
    rw [toNat_tenthNanos]
    omega

lemma total_tenth (d : SplitSpan) : d.tenth.total = d.total / 10 := by
  have hseconds : d.tenth.seconds.toNat = d.seconds.toNat / 10 := rfl
  have hnanos : d.tenth.nanos.toNat = _ := d.toNat_tenthNanos
  rw [total, total, hseconds, hnanos]
  omega

/-! ## Comparison -/

/-- Whether a span is empty. -/
def isZero (d : SplitSpan) : Bool := d.seconds == 0 && d.nanos == 0

lemma isZero_iff (d : SplitSpan) : d.isZero = true ↔ d.total = 0 := by
  have hseconds : d.seconds = 0 ↔ d.seconds.toNat = 0 := UInt64.toNat_inj.symm
  have hnanos : d.nanos = 0 ↔ d.nanos.toNat = 0 := UInt32.toNat_inj.symm
  rw [isZero, Bool.and_eq_true, beq_iff_eq, beq_iff_eq, hseconds, hnanos, total]
  omega

/-- Whether a span is at most as long as another: the seconds decide, and the nanoseconds if they
are equal. -/
def notAbove (d e : SplitSpan) : Bool :=
  d.seconds < e.seconds || d.seconds == e.seconds && d.nanos ≤ e.nanos

lemma notAbove_iff (d e : SplitSpan) : d.notAbove e = true ↔ d.total ≤ e.total := by
  have hd := d.nanos_lt
  have he := e.nanos_lt
  rw [notAbove, Bool.or_eq_true, Bool.and_eq_true, decide_eq_true_iff, decide_eq_true_iff,
    beq_iff_eq, ← UInt64.toNat_inj, UInt64.lt_iff_toNat_lt, UInt32.le_iff_toNat_le, total, total]
  omega

/-- The shorter of two spans. -/
def least (d e : SplitSpan) : SplitSpan := if d.notAbove e then d else e

lemma total_least (d e : SplitSpan) : (d.least e).total = min d.total e.total := by
  unfold least
  by_cases h : d.notAbove e = true
  · rw [if_pos h, Nat.min_eq_left ((notAbove_iff d e).mp h)]
  · have hle : e.total ≤ d.total := Nat.le_of_not_le fun hle => h ((notAbove_iff d e).mpr hle)
    rw [if_neg h, Nat.min_eq_right hle]

/-! ## Subtraction -/

/-- The nanoseconds of a difference for which a second is borrowed. -/
lemma toNat_borrowed (d e : SplitSpan) (h : d.nanos.toNat < e.nanos.toNat) :
    (d.nanos + 1000000000 - e.nanos).toNat = d.nanos.toNat + 1000000000 - e.nanos.toNat := by
  have hd := d.nanos_lt
  have he := e.nanos_lt
  have hbillion : (1000000000 : UInt32).toNat = 1000000000 := rfl
  have hsum : (d.nanos + 1000000000).toNat = d.nanos.toNat + 1000000000 := by
    rw [UInt32.toNat_add, hbillion]
    omega
  have hle : e.nanos ≤ d.nanos + 1000000000 := by
    rw [UInt32.le_iff_toNat_le, hsum]
    omega
  rw [UInt32.toNat_sub_of_le _ _ hle, hsum]

/-- What a span has more than another, with a second borrowed for the nanoseconds if they are fewer;
nothing if there are not seconds enough. -/
def sub? (d e : SplitSpan) : Option SplitSpan :=
  if e.seconds ≤ d.seconds then
    if hnanos : e.nanos ≤ d.nanos then
      some
        { seconds := d.seconds - e.seconds
          nanos := d.nanos - e.nanos
          nanos_lt := by
            rw [UInt32.toNat_sub_of_le _ _ hnanos]
            exact Nat.lt_of_le_of_lt (Nat.sub_le _ _) d.nanos_lt }
    else if d.seconds - e.seconds = 0 then none
    else
      some
        { seconds := d.seconds - e.seconds - 1
          nanos := d.nanos + 1000000000 - e.nanos
          nanos_lt := by
            rw [UInt32.le_iff_toNat_le, Nat.not_le] at hnanos
            rw [toNat_borrowed d e hnanos]
            omega }
  else none

/-- **A shorter span can be taken off.** -/
lemma exists_sub? {d e : SplitSpan} (h : e.total ≤ d.total) :
    ∃ r, d.sub? e = some r ∧ r.total = d.total - e.total := by
  have hd := d.nanos_lt
  have he := e.nanos_lt
  unfold total at h
  have hseconds : e.seconds.toNat ≤ d.seconds.toNat := by omega
  have hle : e.seconds ≤ d.seconds := UInt64.le_iff_toNat_le.mpr hseconds
  have hdiff : (d.seconds - e.seconds).toNat = d.seconds.toNat - e.seconds.toNat :=
    UInt64.toNat_sub_of_le _ _ hle
  rw [sub?, if_pos hle]
  by_cases hnanos : e.nanos ≤ d.nanos
  · rw [dif_pos hnanos]
    refine ⟨_, rfl, ?_⟩
    dsimp only [total]
    rw [hdiff, UInt32.toNat_sub_of_le _ _ hnanos]
    rw [UInt32.le_iff_toNat_le] at hnanos
    omega
  · -- the nanoseconds are fewer, so there is a second to borrow
    have hfewer : d.nanos.toNat < e.nanos.toNat := Nat.not_le.mp hnanos
    have hmore : e.seconds.toNat < d.seconds.toNat := by omega
    have hone : (1 : UInt64) ≤ d.seconds - e.seconds := by
      rw [UInt64.le_iff_toNat_le, hdiff, UInt64.toNat_one]
      omega
    have hsome : ¬ d.seconds - e.seconds = 0 := by
      rw [← UInt64.toNat_inj, hdiff, UInt64.toNat_zero]
      omega
    rw [dif_neg hnanos, if_neg hsome]
    refine ⟨_, rfl, ?_⟩
    dsimp only [total]
    rw [UInt64.toNat_sub_of_le _ _ hone, hdiff, toNat_borrowed d e hfewer, UInt64.toNat_one]
    omega

/-! ## Single words -/

/-- A number of nanoseconds as a span. -/
def ofNanos (n : UInt64) : SplitSpan where
  seconds := n / 1000000000
  nanos := (n % 1000000000).toUInt32
  nanos_lt := by
    rw [UInt64.toNat_toUInt32]
    exact Nat.lt_of_le_of_lt (Nat.mod_le _ _) (Nat.mod_lt n.toNat (by decide))

lemma total_ofNanos (n : UInt64) : (ofNanos n).total = n.toNat := by
  have hseconds : (ofNanos n).seconds.toNat = n.toNat / 1000000000 := rfl
  have hnanos : (ofNanos n).nanos.toNat = n.toNat % 1000000000 % 4294967296 :=
    UInt64.toNat_toUInt32 _
  rw [total, hseconds, hnanos]
  omega

/-- The nanoseconds of a span in a word of 128 bits. -/
def wide (d : SplitSpan) : BitVec 128 :=
  d.seconds.toBitVec.setWidth 128 * 1000000000 + d.nanos.toBitVec.setWidth 128

lemma toNat_wide (d : SplitSpan) : d.wide.toNat = d.total := by
  have hlt : d.seconds.toNat < 18446744073709551616 := d.seconds.toNat_lt
  have hlt' := d.nanos_lt
  have hseconds : (d.seconds.toBitVec.setWidth 128).toNat = d.seconds.toNat := by
    rw [BitVec.toNat_setWidth, UInt64.toNat_toBitVec]
    omega
  have hnanos : (d.nanos.toBitVec.setWidth 128).toNat = d.nanos.toNat := by
    rw [BitVec.toNat_setWidth, UInt32.toNat_toBitVec]
    omega
  have hbillion : (1000000000 : BitVec 128).toNat = 1000000000 := rfl
  rw [wide, BitVec.toNat_add, BitVec.toNat_mul, hseconds, hnanos, hbillion, total]
  omega

/-- A number in a word of 64 bits; the greatest one that fits stands for those that do not. -/
def narrow (n : BitVec 128) : UInt64 :=
  if n ≤ 0xffffffffffffffff then ⟨n.setWidth 64⟩ else 0xffffffffffffffff

lemma toNat_narrow (n : BitVec 128) : (narrow n).toNat = min n.toNat 0xffffffffffffffff := by
  unfold narrow
  by_cases h : n ≤ 0xffffffffffffffff
  · have hle : n.toNat ≤ 0xffffffffffffffff := h
    have hfits : (UInt64.ofBitVec (n.setWidth 64)).toNat = n.toNat := by
      rw [UInt64.toNat_ofBitVec, BitVec.toNat_setWidth]
      omega
    rw [if_pos h, hfits, Nat.min_eq_left hle]
  · have hle : 0xffffffffffffffff ≤ n.toNat := Nat.le_of_not_le h
    rw [if_neg h, Nat.min_eq_right hle]
    rfl

end SplitSpan

end LayeredCache
