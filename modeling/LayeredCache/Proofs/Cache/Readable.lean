import LayeredCache.Cache.Program
import Mathlib.Tactic.Lemma

/-!
# Values that can be read back

A value that is written at a type and read at the same type comes back, whichever form the near
tier holds it in: its bytes, if they decode to it, or the value itself.

## Main definitions

* `Content.Readable` — a content that can be read at a type.
* `Envelope.Keeps` — a value of a type whose stored form reads back as the value, or is empty.

## Main results

* `Native.extract_of` — a native value is given back at its type.
* `Envelope.Keeps.read`, `Envelope.Keeps.readable` — what is written can be read.
* `Content.failure_of_read` — a content that cannot be read is spoilt and not missing.
-/

set_option autoImplicit false

namespace LayeredCache

/-! ## Types are the same as themselves -/

mutual

/-- A description is the same type as itself. -/
theorem Ty.same_refl : (t : Ty) → t.same t = true
  | .scalar s => by simp [Ty.same]
  | .option a => by
    rw [Ty.same]
    exact Ty.same_refl a
  | .list a => by
    rw [Ty.same]
    exact Ty.same_refl a
  | .array n a => by
    rw [Ty.same, Ty.same_refl a]
    simp
  | .tuple ts => by
    rw [Ty.same]
    exact Ty.sameAll_refl ts
  | .map k a => by
    rw [Ty.same, Ty.same_refl k, Ty.same_refl a]
    rfl
  | .record n fs => by
    rw [Ty.same, Ty.sameFields_refl fs]
    simp
  | .self => by rw [Ty.same]
  | .choice n cs => by
    rw [Ty.same, Ty.sameCases_refl cs]
    simp

/-- A list of types is the same as itself. -/
theorem Ty.sameAll_refl : (ts : List Ty) → Ty.sameAll ts ts = true
  | [] => by rw [Ty.sameAll]
  | t :: ts => by
    rw [Ty.sameAll, Ty.same_refl t, Ty.sameAll_refl ts]
    rfl

/-- A list of fields is the same as itself. -/
theorem Ty.sameFields_refl : (fs : List (String × Ty)) → Ty.sameFields fs fs = true
  | [] => by rw [Ty.sameFields]
  | (m, t) :: fs => by
    rw [Ty.sameFields, Ty.same_refl t, Ty.sameFields_refl fs]
    simp

/-- A list of cases is the same as itself. -/
theorem Ty.sameCases_refl : (cs : List (String × Option Ty)) → Ty.sameCases cs cs = true
  | [] => by rw [Ty.sameCases]
  | (m, none) :: cs => by
    rw [Ty.sameCases, Ty.sameCases_refl cs]
    simp
  | (m, some t) :: cs => by
    rw [Ty.sameCases, Ty.same_refl t, Ty.sameCases_refl cs]
    simp

end

/-! ## Native values -/

/-- **A native value is given back** at its type, unless the type is that of literals, which can be
written and not read. -/
theorem Native.extract_of {ty : Ty} {v : Value} (hty : ty ≠ .scalar .literal)
    (hv : Ty.admits ty ty v = true) : (Native.of ty v).extract ty = .ok v := by
  have hassign : (Native.of ty v).assign? ty = some v := by
    unfold Native.of
    split
    · rfl
    · exact absurd rfl hty
    · rfl
    · rfl
    · rfl
    · rename_i k i
      have hcontains : k.contains i = true := by simpa [Ty.admits, Scalar.admits] using hv
      by_cases hk : k = IntKind.int64 ∨ k = IntKind.int32
      · rw [if_pos hk]
        exact if_pos ⟨hk, hcontains⟩
      · rw [if_neg hk]
        exact if_pos (Ty.same_refl _)
    · rfl
    · exact if_pos (Ty.same_refl ty)
  rw [Native.extract, hassign]

/-! ## Contents -/

/-- A content can be read at type `ty`. -/
def Content.Readable (ty : Ty) (content : Content) : Prop := ∃ r, content.read ty = .ok r

/-- A content that cannot be read is spoilt, and not missing. -/
lemma Content.failure_of_read {ty : Ty} {content : Content} {f : Failure}
    (h : content.read ty = .error f) : f.isCorruption = true ∧ f.isMissing = false := by
  cases content with
  | stored data =>
    cases hd : Envelope.decode ty data with
    | ok v =>
      simp only [Content.read, hd] at h
      cases h
    | error fault =>
      simp only [Content.read, hd] at h
      obtain rfl := Except.error.inj h
      exact ⟨rfl, rfl⟩
  | native n =>
    simp only [Content.read, Native.extract] at h
    cases ha : n.assign? ty with
    | some v =>
      rw [ha] at h
      cases h
    | none =>
      rw [ha] at h
      obtain rfl := Except.error.inj h
      exact ⟨rfl, rfl⟩

/-- A value of type `ty` with its stored form, which is empty or decodes to the value. -/
structure Envelope.Keeps (e : Envelope) (ty : Ty) (v : Value) (data : Bytes) : Prop where
  admits : Ty.admits ty ty v = true
  encode : e.encode ty v = .ok data
  decode : data = [] ∨ Envelope.decode ty data = .ok (some v)

/-- What is left in the destination of a reader by a value with its stored form. -/
def keptOf (v : Value) (data : Bytes) : Option Value := if data = [] then none else some v

/-- A stored form that is empty or decodes to a value is read as that value, or as nothing if it is
empty. -/
lemma Content.read_stored {ty : Ty} {v : Value} {data : Bytes}
    (h : data = [] ∨ Envelope.decode ty data = .ok (some v)) :
    (Content.stored data).read ty = .ok (keptOf v data) := by
  by_cases hdata : data = []
  · subst hdata
    rfl
  · have hdecode := h.resolve_left hdata
    simp only [Content.read, hdecode, keptOf, if_neg hdata]

namespace Envelope.Keeps

variable {e : Envelope} {ty : Ty} {v : Value} {data : Bytes}

/-- The stored form is read as the value, or as nothing if it is empty. -/
lemma read (h : e.Keeps ty v data) : (Content.stored data).read ty = .ok (keptOf v data) :=
  Content.read_stored h.decode

/-- What the near tier holds for the value can be read. -/
lemma readable (h : e.Keeps ty v data) (hty : ty ≠ .scalar .literal) (o : CallOptions) :
    (Setup.contentOf ty v data o).Readable ty := by
  unfold Setup.contentOf
  cases o.raw with
  | true =>
    refine ⟨some v, ?_⟩
    rw [if_pos rfl, Content.read, Native.extract_of hty h.admits]
  | false =>
    rw [if_neg Bool.false_ne_true]
    exact ⟨_, h.read⟩

end Envelope.Keeps

end LayeredCache
