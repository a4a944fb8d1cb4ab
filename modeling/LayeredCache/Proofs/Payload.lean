import LayeredCache.Envelope
import LayeredCache.Proofs.Zstandard.Stored
import Mathlib.Data.List.Basic

/-!
# Payloads come back

A payload is put away with one byte after it, and this last byte alone decides how the bytes before
it are read. What they are does not matter: a payload may end like a marked one, or be a compressed
frame itself. A short payload is put away as it is and a long one compressed, and both come back,
whatever compressor made the frame: all that counts is that the frame expands to the payload.

## Main definitions

* `Envelope.Holds` — the forms in which a payload may be put away.

## Main results

* `Envelope.unwrap_concat` — how bytes are read, by the last of them.
* `Envelope.Holds.unwrap` — a payload comes back from any form that holds it.
* `Envelope.unwrap_wrap` — a payload comes back from the form that an envelope gives it.
* `Envelope.lossless` — what becomes of payloads, and which bytes are refused for their marker.
-/

set_option autoImplicit false

namespace LayeredCache

namespace Envelope

variable (e : Envelope)

/-! ## Reading by the last byte -/

/-- The two markers differ. -/
lemma compressedMarker_ne : compressedMarker ≠ plainMarker := by decide

/-- The last byte decides. -/
lemma unwrap_concat (rest : Bytes) (marker : UInt8) :
    unwrap (rest ++ [marker]) =
      if marker = plainMarker then .ok rest
      else if marker = compressedMarker then
        (Zstandard.expand rest).elim (.error .corruptFrame) .ok
      else .error (.unknownMarker marker) := by
  unfold unwrap
  rw [List.getLast?_concat, List.dropLast_concat]
  simp only [beq_iff_eq]
  cases Zstandard.expand rest <;> rfl

/-- Bytes before the marker of plain payloads are the payload. -/
lemma unwrap_plain (rest : Bytes) : unwrap (rest ++ [plainMarker]) = .ok rest := by
  rw [unwrap_concat, if_pos rfl]

/-- Bytes before the marker of compressed payloads are expanded. -/
lemma unwrap_compressed (rest : Bytes) :
    unwrap (rest ++ [compressedMarker]) =
      (Zstandard.expand rest).elim (.error .corruptFrame) .ok := by
  rw [unwrap_concat, if_neg compressedMarker_ne, if_pos rfl]

/-- Any other last byte is refused. -/
lemma unwrap_unknown (rest : Bytes) {marker : UInt8} (hplain : marker ≠ plainMarker)
    (hcompressed : marker ≠ compressedMarker) :
    unwrap (rest ++ [marker]) = .error (.unknownMarker marker) := by
  rw [unwrap_concat, if_neg hplain, if_neg hcompressed]

/-- **Bytes are refused for their last one** exactly when it is no marker.

**Proof sketch.** By the last byte. After the marker of compressed payloads the expansion may fail,
but for another cause. -/
lemma unwrap_eq_unknownMarker_iff (data : Bytes) (marker : UInt8) :
    unwrap data = .error (.unknownMarker marker) ↔
      data.getLast? = some marker ∧ marker ≠ plainMarker ∧ marker ≠ compressedMarker := by
  rcases List.eq_nil_or_concat' data with rfl | ⟨rest, last, rfl⟩
  · exact iff_of_false (fun h => by cases h) (fun h => by cases h.1)
  · rw [List.getLast?_concat, Option.some_inj]
    constructor
    · intro hrefused
      by_cases hplain : last = plainMarker
      · subst hplain
        rw [unwrap_plain] at hrefused
        cases hrefused
      · by_cases hcompressed : last = compressedMarker
        · subst hcompressed
          rw [unwrap_compressed] at hrefused
          cases hexpand : Zstandard.expand rest <;> rw [hexpand] at hrefused <;> cases hrefused
        · rw [unwrap_unknown rest hplain hcompressed] at hrefused
          obtain rfl := Fault.unknownMarker.inj (Except.error.inj hrefused)
          exact ⟨rfl, hplain, hcompressed⟩
    · rintro ⟨rfl, hplain, hcompressed⟩
      exact unwrap_unknown rest hplain hcompressed

/-! ## Payloads -/

/-- Bytes hold a payload: a short one as it is, and a long one in a frame that expands to it,
whatever compressor made the frame. -/
inductive Holds (payload : Bytes) : Bytes → Prop where
  | plain (hshort : payload.length < threshold) : Holds payload (payload ++ [plainMarker])
  | compressed {frame : Bytes} (hlong : ¬ payload.length < threshold)
      (hframe : Zstandard.expand frame = some payload) :
      Holds payload (frame ++ [compressedMarker])

namespace Holds

variable {payload data : Bytes}

/-- **A payload comes back** from bytes that hold it. -/
theorem unwrap (h : Holds payload data) : Envelope.unwrap data = .ok payload := by
  cases h with
  | plain hshort => exact unwrap_plain payload
  | compressed hlong hframe =>
    rw [unwrap_compressed, hframe]
    rfl

/-- The last byte tells whether the payload is short. -/
lemma getLast? (h : Holds payload data) :
    data.getLast? =
      some (if payload.length < threshold then plainMarker else compressedMarker) := by
  cases h with
  | plain hshort => rw [List.getLast?_concat, if_pos hshort]
  | compressed hlong hframe => rw [List.getLast?_concat, if_neg hlong]

/-- Something is always left of a payload: its last byte. -/
lemma ne_nil (h : Holds payload data) : data ≠ [] := by
  rintro rfl
  cases h.getLast?

end Holds

/-- A short payload is put away as it is. -/
lemma wrap_short {payload : Bytes} (h : payload.length < threshold) :
    e.wrap payload = payload ++ [plainMarker] := if_pos h

/-- A long payload is compressed. -/
lemma wrap_long {payload : Bytes} (h : ¬ payload.length < threshold) :
    e.wrap payload = Zstandard.compress e.level payload ++ [compressedMarker] := if_neg h

/-- What an envelope gives holds the payload, because expanding inverts its compressor. -/
lemma holds_wrap (payload : Bytes) : Holds payload (e.wrap payload) := by
  by_cases h : payload.length < threshold
  · rw [wrap_short e h]
    exact .plain h
  · rw [wrap_long e h]
    exact .compressed h (Zstandard.expand_compress e.level payload)

/-- Something is always left of a payload. -/
lemma wrap_ne_nil (payload : Bytes) : e.wrap payload ≠ [] := (e.holds_wrap payload).ne_nil

/-- **A payload comes back**, whether it is long enough to be compressed or not. -/
theorem unwrap_wrap (payload : Bytes) : unwrap (e.wrap payload) = .ok payload :=
  (e.holds_wrap payload).unwrap

/-- **Nothing is lost.** At every level a payload comes back. Something is always stored for it, and
its last byte is `00` for a payload of less than 64 bytes, before which it stands as it is, and `01`
for any other.

Bytes of any other origin are refused for their marker exactly when their last one is neither of
these two, and the two are not taken for each other: before `00` the bytes are the payload, whatever
they are, and before `01` they are a frame that is expanded or corrupt.

**Proof sketch.** By the last byte, and because what is put away holds the payload. -/
theorem lossless (e : Envelope) :
    (∀ payload,
      unwrap (e.wrap payload) = .ok payload ∧ e.wrap payload ≠ [] ∧
        (e.wrap payload).getLast? = some (if payload.length < 64 then 0x00 else 0x01) ∧
        (payload.length < 64 → e.wrap payload = payload ++ [0x00])) ∧
    (∀ data marker, unwrap data = .error (.unknownMarker marker) ↔
      data.getLast? = some marker ∧ marker ≠ 0x00 ∧ marker ≠ 0x01) ∧
    ∀ rest, unwrap (rest ++ [0x00]) = .ok rest ∧
      unwrap (rest ++ [0x01]) = (Zstandard.expand rest).elim (.error .corruptFrame) .ok := by
  refine ⟨fun payload => ⟨?_, ?_, ?_, ?_⟩, unwrap_eq_unknownMarker_iff, fun rest => ⟨?_, ?_⟩⟩
  · exact e.unwrap_wrap payload
  · exact e.wrap_ne_nil payload
  · exact (e.holds_wrap payload).getLast?
  · exact e.wrap_short
  · exact unwrap_plain rest
  · exact unwrap_compressed rest

/-- A payload that ends like a compressed one is stored as it is. -/
theorem lossless_marked : (⟨19⟩ : Envelope).wrap [0x28, 0x01] = [0x28, 0x01, 0x00] :=
  ((lossless ⟨19⟩).1 [0x28, 0x01]).2.2.2 (by decide)

end Envelope

end LayeredCache
