import LayeredCache.Text.Utf8
import Mathlib.Tactic.Lemma

/-!
# Numbers and texts as bytes

A number that fits its width, and any text, come back from the bytes that they are written as, also
when other bytes follow.

## Main results

* `Bytes.ofLittleEndian_toLittleEndian`, `Bytes.ofBigEndian_toBigEndian` — numbers.
* `Bytes.split?_append` — the first bytes of a longer string.
* `Utf8.text?_encode`, `Utf8.encode_of_text?` — texts.
-/

set_option autoImplicit false

namespace LayeredCache

namespace Bytes

/-! ## Numbers -/

@[simp] lemma length_toLittleEndian (width n : Nat) :
    (toLittleEndian width n).length = width := by
  induction width generalizing n with
  | zero => rfl
  | succ width ih => rw [toLittleEndian, List.length_cons, ih]

@[simp] lemma length_toBigEndian (width n : Nat) : (toBigEndian width n).length = width := by
  rw [toBigEndian, List.length_reverse, length_toLittleEndian]

/-- **A number comes back** from its bytes when it fits their number. -/
lemma ofLittleEndian_toLittleEndian {width n : Nat} (h : n < Nat.pow 256 width) :
    ofLittleEndian (toLittleEndian width n) = n := by
  induction width generalizing n with
  | zero =>
    obtain rfl : n = 0 := Nat.lt_one_iff.mp h
    rfl
  | succ width ih =>
    have hdiv : n / 256 < Nat.pow 256 width := Nat.div_lt_of_lt_mul (Nat.mul_comm _ 256 ▸ h)
    rw [toLittleEndian, ofLittleEndian, ih hdiv, UInt8.toNat_ofNat']
    exact Nat.mod_add_div n 256

/-- Both byte orders say the same. -/
lemma ofBigEndian_reverse (bs : Bytes) : ofBigEndian bs.reverse = ofLittleEndian bs := by
  unfold ofBigEndian
  induction bs with
  | nil => rfl
  | cons b bs ih =>
    rw [List.reverse_cons, List.foldl_append, ih, ofLittleEndian, Nat.add_comm]
    rfl

/-- **A number comes back** from its bytes in the other order as well. -/
lemma ofBigEndian_toBigEndian {width n : Nat} (h : n < Nat.pow 256 width) :
    ofBigEndian (toBigEndian width n) = n := by
  rw [toBigEndian, ofBigEndian_reverse, ofLittleEndian_toLittleEndian h]

/-! ## Beginnings -/

/-- **The first bytes** of a longer string. -/
lemma split?_append {n : Nat} {first : Bytes} (h : first.length = n) (rest : Bytes) :
    split? n (first ++ rest) = some (first, rest) := by
  subst h
  unfold split?
  rw [List.take_left, List.drop_left]
  exact if_pos rfl

end Bytes

namespace Utf8

/-! ## Texts -/

/-- **A text comes back** from its bytes. -/
@[simp] lemma text?_encode (s : String) : text? (encode s) = some s := by
  have hbytes : (⟨(encode s).toArray⟩ : ByteArray) = s.toByteArray := by
    rw [encode, Array.toArray_toList]
    rfl
  rw [text?, hbytes, String.fromUTF8?, dif_pos s.isValidUTF8]
  rfl

/-- **Bytes come back** from the text that they encode. -/
lemma encode_of_text? {bs : Bytes} {s : String} (h : text? bs = some s) : encode s = bs := by
  unfold text? String.fromUTF8? at h
  split at h
  · obtain rfl := Option.some.inj h
    rfl
  · cases h

/-- Texts with the same bytes are the same. -/
lemma encode_inj {s t : String} : encode s = encode t ↔ s = t := by
  constructor
  · intro h
    have hs := text?_encode s
    rw [h, text?_encode] at hs
    exact (Option.some.inj hs).symm
  · exact congrArg encode

/-- A text has no bytes if it is empty. -/
lemma encode_eq_nil {s : String} : encode s = [] ↔ s = "" := by
  have hempty : encode "" = [] := by decide
  rw [← hempty, encode_inj]

/-- The number of bytes of a text. -/
lemma length_encode (s : String) : (encode s).length = s.utf8ByteSize := by
  rfl

/-- A character takes four bytes at most. -/
lemma length_encode_toString_le (c : Char) : (encode c.toString).length ≤ 4 := by
  rw [length_encode, Char.toString, String.utf8ByteSize_singleton]
  exact c.utf8Size_le_four

end Utf8

end LayeredCache
