import LayeredCache.Proofs.Envelope

/-!
# Reading a value at another type

A value that is held as it is can be read at a close relative of its type, by a table of its own,
and its stored form is read at a type by decoding it. The two agree: whenever the value is given
back, decoding gives the same, and neither a number nor the bytes of a text are changed on the way.

## Main definitions

* `Native.Coerces` — what a value of one type can be read as at another type.
* `Native.Holds` — how the values of a type are held.
* `Native.AgreesWithStored` — reading a value agrees with reading its stored form.

## Main results

* `Ty.eq_of_same` — descriptions of the same type are equal.
* `Native.extract_iff` — a value is read as what it can be coerced to, and as nothing else.
* `Native.Coerces.decode` — so is its stored form.
* `Native.agrees_with_stored` — the two agree for all values of storable types.
-/

set_option autoImplicit false

namespace LayeredCache

/-! ## Types that are the same are equal -/

mutual

/-- Two descriptions of the same type are equal. -/
theorem Ty.eq_of_same : (t u : Ty) → t.same u = true → t = u
  | .scalar s, u, h => by
    cases u with
    | scalar s' =>
      rw [Ty.same, beq_iff_eq] at h
      rw [h]
    | _ => simp [Ty.same] at h
  | .option a, u, h => by
    cases u with
    | option b =>
      rw [Ty.same] at h
      rw [Ty.eq_of_same a b h]
    | _ => simp [Ty.same] at h
  | .list a, u, h => by
    cases u with
    | list b =>
      rw [Ty.same] at h
      rw [Ty.eq_of_same a b h]
    | _ => simp [Ty.same] at h
  | .array m a, u, h => by
    cases u with
    | array n b =>
      rw [Ty.same, Bool.and_eq_true, beq_iff_eq] at h
      rw [h.1, Ty.eq_of_same a b h.2]
    | _ => simp [Ty.same] at h
  | .tuple as, u, h => by
    cases u with
    | tuple bs =>
      rw [Ty.same] at h
      rw [Ty.eq_of_sameAll as bs h]
    | _ => simp [Ty.same] at h
  | .map j a, u, h => by
    cases u with
    | map k b =>
      rw [Ty.same, Bool.and_eq_true] at h
      rw [Ty.eq_of_same j k h.1, Ty.eq_of_same a b h.2]
    | _ => simp [Ty.same] at h
  | .record m as, u, h => by
    cases u with
    | record n bs =>
      rw [Ty.same, Bool.and_eq_true, beq_iff_eq] at h
      rw [h.1, Ty.eq_of_sameFields as bs h.2]
    | _ => simp [Ty.same] at h
  | .self, u, h => by
    cases u with
    | self => rfl
    | _ => simp [Ty.same] at h
  | .choice m as, u, h => by
    cases u with
    | choice n bs =>
      rw [Ty.same, Bool.and_eq_true, beq_iff_eq] at h
      rw [h.1, Ty.eq_of_sameCases as bs h.2]
    | _ => simp [Ty.same] at h

/-- Two lists of the same types are equal. -/
theorem Ty.eq_of_sameAll : (ts us : List Ty) → Ty.sameAll ts us = true → ts = us
  | [], us, h => by
    cases us with
    | nil => rfl
    | cons => simp [Ty.sameAll] at h
  | t :: ts, us, h => by
    cases us with
    | nil => simp [Ty.sameAll] at h
    | cons u us =>
      rw [Ty.sameAll, Bool.and_eq_true] at h
      rw [Ty.eq_of_same t u h.1, Ty.eq_of_sameAll ts us h.2]

/-- Two lists of the same fields are equal. -/
theorem Ty.eq_of_sameFields :
    (fs gs : List (String × Ty)) → Ty.sameFields fs gs = true → fs = gs
  | [], gs, h => by
    cases gs with
    | nil => rfl
    | cons => simp [Ty.sameFields] at h
  | (m, t) :: fs, gs, h => by
    cases gs with
    | nil => simp [Ty.sameFields] at h
    | cons g gs =>
      rw [Ty.sameFields, Bool.and_eq_true, Bool.and_eq_true, beq_iff_eq] at h
      rw [h.1.1, Ty.eq_of_same t g.2 h.1.2, Ty.eq_of_sameFields fs gs h.2]

/-- Two lists of the same cases are equal. -/
theorem Ty.eq_of_sameCases :
    (cs ds : List (String × Option Ty)) → Ty.sameCases cs ds = true → cs = ds
  | [], ds, h => by
    cases ds with
    | nil => rfl
    | cons => simp [Ty.sameCases] at h
  | (m, none) :: cs, ds, h => by
    rcases ds with _ | ⟨⟨n, _ | u⟩, ds⟩
    · simp [Ty.sameCases] at h
    · rw [Ty.sameCases, Bool.and_eq_true, beq_iff_eq] at h
      rw [h.1, Ty.eq_of_sameCases cs ds h.2]
    · simp [Ty.sameCases] at h
  | (m, some t) :: cs, ds, h => by
    rcases ds with _ | ⟨⟨n, _ | u⟩, ds⟩
    · simp [Ty.sameCases] at h
    · simp [Ty.sameCases] at h
    · rw [Ty.sameCases, Bool.and_eq_true, Bool.and_eq_true, beq_iff_eq] at h
      rw [h.1.1, Ty.eq_of_same t u h.1.2, Ty.eq_of_sameCases cs ds h.2]

end

/-! ## Coercions -/

/-- Whether a type is that of texts, or of byte strings of one of the two kinds. -/
def Ty.isVerbatim : Ty → Bool
  | .scalar .text | .scalar .octets | .scalar .buffer => true
  | _ => false

/-- Whether an integer type shares its kind of native values with another one. -/
def IntKind.isCommon (k : IntKind) : Bool := k == .int64 || k == .int32

/-- Whether there is a kind of native values for a type. -/
def Ty.primitive : Ty → Bool
  | .scalar (.int k) => k.isCommon
  | .scalar .bool | .scalar .float64 => true
  | ty => ty.isVerbatim

namespace Native

/-- The value `v` of type `ty` can be read as the value `u` of type `uty`: as itself, as a text or a
byte string with the same bytes, or as the same integer at the other width. -/
inductive Coerces : Ty → Value → Ty → Value → Prop where
  | same (ty : Ty) (v : Value) : Coerces ty v ty v
  | text {ty : Ty} {v : Value} (s : String) (source : ty.isVerbatim = true)
      (bytes : Envelope.verbatim? ty v = some (Utf8.encode s)) : Coerces ty v .text (.text s)
  | octets {ty : Ty} {v : Value} (data : Bytes) (source : ty.isVerbatim = true)
      (bytes : Envelope.verbatim? ty v = some data) : Coerces ty v .octets (.octets data)
  | buffer {ty : Ty} {v : Value} (data : Bytes) (source : ty.isVerbatim = true)
      (bytes : Envelope.verbatim? ty v = some data) : Coerces ty v .buffer (.buffer data)
  | int {j k : IntKind} (i : Int) (source : j.isCommon = true) (target : k.isCommon = true)
      (fits : k.contains i = true) : Coerces (.int j) (.int i) (.int k) (.int i)

/-- How a value of a type is held. -/
inductive Holds : Ty → Value → Native → Prop where
  | text (s : String) : Holds .text (.text s) (.text s)
  | octets (bs : Bytes) : Holds .octets (.octets bs) (.bytes bs)
  | buffer (bs : Bytes) : Holds .buffer (.buffer bs) (.bytes bs)
  | flag (b : Bool) : Holds .bool (.bool b) (.flag b)
  | int {k : IntKind} (i : Int) (common : k.isCommon = true) (fits : k.contains i = true) :
      Holds (.int k) (.int i) (.int i)
  | float (bits : UInt64) : Holds .float64 (.float64 bits) (.float bits)
  | boxed {ty : Ty} (v : Value) (other : ty.primitive = false) : Holds ty v (.boxed ty v)

variable {ty uty : Ty} {v u : Value} {n : Native}

lemma isCommon_iff {k : IntKind} : k.isCommon = true ↔ k = IntKind.int64 ∨ k = IntKind.int32 := by
  rw [IntKind.isCommon, Bool.or_eq_true, beq_iff_eq, beq_iff_eq]

lemma primitive_of_isVerbatim (h : ty.isVerbatim = true) : ty.primitive = true := by
  cases ty with
  | scalar s =>
    cases s with
    | text | octets | buffer => rfl
    | _ => cases h
  | _ => cases h

/-- Every value of a type that can be read is held in one of these ways. -/
lemma holds_of (hty : ty ≠ .scalar .literal) (hadmits : Ty.admits ty ty v = true) :
    Holds ty v (of ty v) := by
  cases ty with
  | scalar s =>
    cases s with
    | literal => exact absurd rfl hty
    | text =>
      cases v with
      | text s => exact .text s
      | _ => cases hadmits
    | octets =>
      cases v with
      | octets bs => exact .octets bs
      | _ => cases hadmits
    | buffer =>
      cases v with
      | buffer bs => exact .buffer bs
      | _ => cases hadmits
    | bool =>
      cases v with
      | bool b => exact .flag b
      | _ => cases hadmits
    | float64 =>
      cases v with
      | float64 bits => exact .float bits
      | _ => cases hadmits
    | int k =>
      cases v with
      | int i =>
        have hfits : k.contains i = true := hadmits
        by_cases hk : k.isCommon = true
        · have hint : of (.int k) (.int i) = .int i := if_pos (isCommon_iff.mp hk)
          exact hint ▸ .int i hk hfits
        · have hboxed : of (.int k) (.int i) = .boxed (.int k) (.int i) :=
            if_neg (mt isCommon_iff.mpr hk)
          exact hboxed ▸ .boxed _ (Bool.not_eq_true _ ▸ hk)
      | _ => cases hadmits
    | _ => exact .boxed _ rfl
  | _ => exact .boxed _ rfl

/-- A native value is read as what the value that it holds can be coerced to. -/
lemma Holds.coerces (h : Holds ty v n) (hread : n.assign? uty = some u) : Coerces ty v uty u := by
  cases h with
  | text s =>
    cases uty with
    | scalar t =>
      cases t with
      | text => cases hread; exact .same _ _
      | octets => cases hread; exact .octets _ rfl rfl
      | buffer => cases hread; exact .buffer _ rfl rfl
      | _ => cases hread
    | _ => cases hread
  | octets bs | buffer bs =>
    cases uty with
    | scalar t =>
      cases t with
      | text =>
        obtain ⟨s, hs, rfl⟩ := Option.map_eq_some_iff.mp hread
        rw [← Utf8.encode_of_text? hs]
        exact .text s rfl rfl
      | octets => cases hread; exact .octets _ rfl rfl
      | buffer => cases hread; exact .buffer _ rfl rfl
      | _ => cases hread
    | _ => cases hread
  | flag b =>
    cases uty with
    | scalar t =>
      cases t with
      | bool => cases hread; exact .same _ _
      | _ => cases hread
    | _ => cases hread
  | int i common fits =>
    cases uty with
    | scalar t =>
      cases t with
      | int k =>
        obtain ⟨⟨hk, hfits⟩, hread⟩ := Option.ite_none_right_eq_some.mp hread
        cases hread
        exact .int i common (isCommon_iff.mpr hk) hfits
      | _ => cases hread
    | _ => cases hread
  | float bits =>
    cases uty with
    | scalar t =>
      cases t with
      | float64 => cases hread; exact .same _ _
      | _ => cases hread
    | _ => cases hread
  | boxed v other =>
    obtain ⟨hsame, hread⟩ := Option.ite_none_right_eq_some.mp hread
    cases hread
    exact Ty.eq_of_same ty uty hsame ▸ .same ty v

/-- What a value can be coerced to is what the native value that holds it is read as. -/
lemma Coerces.assign? (hc : Coerces ty v uty u) (h : Holds ty v n) : n.assign? uty = some u := by
  cases hc with
  | same =>
    cases h with
    | int i common fits => exact if_pos ⟨isCommon_iff.mp common, fits⟩
    | boxed v other => exact if_pos (Ty.same_refl ty)
    | _ => rfl
  | text s source bytes =>
    cases h with
    | text t => cases Utf8.encode_inj.mp (Option.some.inj bytes); rfl
    | octets bs | buffer bs =>
      cases bytes
      simp [Native.assign?]
    | boxed v other => cases (primitive_of_isVerbatim source).symm.trans other
    | _ => cases source
  | octets data source bytes =>
    cases h with
    | boxed v other => cases (primitive_of_isVerbatim source).symm.trans other
    | text | octets | buffer => cases bytes; rfl
    | _ => cases source
  | buffer data source bytes =>
    cases h with
    | boxed v other => cases (primitive_of_isVerbatim source).symm.trans other
    | text | octets | buffer => cases bytes; rfl
    | _ => cases source
  | int i source target fits =>
    cases h with
    | int _ _ _ => exact if_pos ⟨isCommon_iff.mp target, fits⟩
    | boxed v other => cases source.symm.trans other

/-- **Reading a native value** of a type that can be read gives what its value can be coerced to. -/
theorem extract_iff (hty : ty ≠ .scalar .literal) (hadmits : Ty.admits ty ty v = true) :
    (of ty v).extract uty = .ok u ↔ Coerces ty v uty u := by
  have hholds := holds_of hty hadmits
  rw [extract]
  constructor
  · intro h
    cases hread : (of ty v).assign? uty with
    | some w =>
      rw [hread] at h
      cases h
      exact hholds.coerces hread
    | none =>
      rw [hread] at h
      cases h
  · intro h
    rw [h.assign? hholds]

/-- **A native value that cannot be read** at a type is refused with the name of the type and of the
kind that is held. -/
lemma extract_refused (hnone : ∀ u, n.extract uty ≠ .ok u) :
    n.extract uty = .error (.mismatch uty.name n.kind) := by
  rw [extract] at *
  cases hread : n.assign? uty with
  | some u =>
    rw [hread] at hnone
    exact absurd rfl (hnone u)
  | none => rfl

end Native

/-! ## The stored form -/

namespace Envelope

variable {e : Envelope} {ty : Ty} {v : Value} {data : Bytes}

/-- What is stored as it is. -/
lemma encode_of_verbatim? (h : verbatim? ty v = some data) : e.encode ty v = .ok data := by
  rw [encode, h]

/-- A value in which nothing refuses to be written has a stored form. -/
lemma exists_encode (ty : Ty) (h : v.refusal? = none) : ∃ data, e.encode ty v = .ok data := by
  rw [encode, h]
  cases verbatim? ty v with
  | some data => exact ⟨data, rfl⟩
  | none =>
    dsimp only
    split <;> exact ⟨_, rfl⟩

/-- A value of a storable type comes back from a stored form that is not empty. Only what is wrapped
has to be within the limits of the reader. -/
lemma decode_same (hty : ty.storable = true) (hadmits : Ty.admits ty ty v = true)
    (hv : ty.wrapped = true → v.Within MessagePack.Reader.depthLimit)
    (hencode : e.encode ty v = .ok data) (hdata : data ≠ []) :
    decode ty data = .ok (some v) := by
  by_cases h : ty.wrapped = true
  · obtain ⟨stored, hstored, -, hdecode⟩ := e.stored hty hadmits (hv h)
    cases hencode.symm.trans hstored
    exact hdecode hdata
  · cases ty with
    | scalar s =>
      cases s with
      | unit => cases hencode; exact absurd rfl hdata
      | text =>
        cases v with
        | text t => cases hencode; exact decode_text hdata (Utf8.text?_encode t)
        | _ => cases hadmits
      | octets =>
        cases v with
        | octets bs => cases hencode; exact decode_octets hdata
        | _ => cases hadmits
      | buffer =>
        cases v with
        | buffer bs => cases hencode; exact decode_buffer hdata
        | _ => cases hadmits
      | literal => cases hty
      | _ => exact absurd rfl h
    | _ => exact absurd rfl h

end Envelope

namespace Native

variable {e : Envelope} {ty uty : Ty} {v u : Value} {data : Bytes}

/-- **What a value can be coerced to** is what its stored form is read as. -/
theorem Coerces.decode (hc : Coerces ty v uty u) (hty : ty.storable = true)
    (hadmits : Ty.admits ty ty v = true)
    (hv : ty.wrapped = true → v.Within MessagePack.Reader.depthLimit)
    (hencode : e.encode ty v = .ok data) (hdata : data ≠ []) :
    Envelope.decode uty data = .ok (some u) := by
  cases hc with
  | same => exact Envelope.decode_same hty hadmits hv hencode hdata
  | text s source bytes =>
    cases hencode.symm.trans (Envelope.encode_of_verbatim? bytes)
    exact Envelope.decode_text hdata (Utf8.text?_encode s)
  | octets bs source bytes =>
    cases hencode.symm.trans (Envelope.encode_of_verbatim? bytes)
    exact Envelope.decode_octets hdata
  | buffer bs source bytes =>
    cases hencode.symm.trans (Envelope.encode_of_verbatim? bytes)
    exact Envelope.decode_buffer hdata
  | @int j k i source target fits =>
    -- the stored form does not depend on the width
    have hencode' : e.encode (.int k) (.int i) = .ok data := hencode
    exact Envelope.decode_same rfl fits (fun _ => hv rfl) hencode' hdata

/-- Reading a value as it is held agrees with reading its stored form. -/
structure AgreesWithStored (e : Envelope) (ty : Ty) (v : Value) : Prop where
  /-- It is given back at its own type. -/
  own : (of ty v).extract ty = .ok v
  /-- At any type it is read as what it can be coerced to. -/
  coerced : ∀ uty u, (of ty v).extract uty = .ok u ↔ Coerces ty v uty u
  /-- It is refused at the other types. -/
  refused : ∀ uty, (∀ u, ¬ Coerces ty v uty u) →
    (of ty v).extract uty = .error (.mismatch uty.name (of ty v).kind)
  /-- What it is read as is what its stored form is read as, if that is not empty. -/
  stored : ∃ data, e.encode ty v = .ok data ∧ (data ≠ [] → ∀ uty u,
    (of ty v).extract uty = .ok u → Envelope.decode uty data = .ok (some u))

/-- **Reading a value as it is held agrees with reading its stored form**, for every value of a
storable type that is nested no deeper than the reader goes and, if it is wrapped, has lengths that
fit their heads.

**Proof sketch.** What is read at a type is what the value can be coerced to. A text or a byte
string is stored as its bytes, and an integer in the same way at every width, so that the stored
form is read alike. -/
theorem agrees_with_stored (e : Envelope) (hty : ty.storable = true)
    (hadmits : Ty.admits ty ty v = true) (hdepth : v.depth ≤ 1023)
    (hlengths : ty.wrapped = true → v.lengthsFit = true) : AgreesWithStored e ty v := by
  have hread : ty ≠ .scalar .literal := by
    rintro rfl
    cases hty
  have hcoerced : ∀ uty u, (of ty v).extract uty = .ok u ↔ Coerces ty v uty u :=
    fun uty u => extract_iff hread hadmits
  obtain ⟨data, hencode⟩ := e.exists_encode ty
    (Ty.refusal?_of_storable (Ty.enclosing_of_storable hty) hty hadmits)
  exact
    { own := (hcoerced ty v).mpr (.same ty v)
      coerced := hcoerced
      refused := fun uty hnone => extract_refused fun u hu => hnone u ((hcoerced uty u).mp hu)
      stored := ⟨data, hencode, fun hdata uty u hu =>
        ((hcoerced uty u).mp hu).decode hty hadmits (fun h => ⟨hdepth, hlengths h⟩) hencode hdata⟩ }

/-- A number of 64 bits is read as it is stored, and is refused at 32 bits when it does not fit. -/
theorem agrees_with_stored_wide :
    AgreesWithStored {} (.int .int64) (.int 0x80000000) ∧
      (of (.int .int64) (.int 0x80000000)).extract (.int .int32) =
        .error (.mismatch "i32" "int") := by
  have hagrees : AgreesWithStored {} (.int .int64) (.int 0x80000000) :=
    agrees_with_stored {} (by decide) (by decide) (by decide) (by decide)
  refine ⟨hagrees, hagrees.refused (.int .int32) fun u hu => ?_⟩
  cases hu with
  | int _ _ _ fits => cases fits

end Native

end LayeredCache
