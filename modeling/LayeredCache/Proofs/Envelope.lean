import LayeredCache.Proofs.Cache.Readable
import LayeredCache.Proofs.MessagePack.RoundTrip
import LayeredCache.Proofs.Payload

/-!
# Stored values come back

What is stored as it is comes back byte for byte. Any other value of a storable type is wrapped,
and reading its stored form at the same type gives it back, compressed or not and at every level.
Only values that stand for nothing are stored as nothing, and they come back as nothing.

## Main definitions

* `Ty.wrapped` — the types whose values are wrapped.
* `Envelope.Vanishes` — the values that are stored as nothing.

## Main results

* `Envelope.decode_of_holds` — a wrapped value comes back from any form that holds it.
* `Envelope.keeps_of_storable` — a value of a storable type is kept.
* `Envelope.round_trip` — a value comes back, and so do the bytes of text and byte strings.
-/

set_option autoImplicit false

namespace LayeredCache

open MessagePack

/-- Whether values of a type are wrapped, and neither stored as they are nor as nothing. -/
def Ty.wrapped : Ty → Bool
  | .scalar .unit | .scalar .text | .scalar .literal | .scalar .octets | .scalar .buffer => false
  | _ => true

/-- Texts and byte strings. -/
def Value.isVerbatim : Value → Bool
  | .text _ | .octets _ | .buffer _ => true
  | _ => false

namespace Envelope

variable (e : Envelope) {ty : Ty} {v : Value} {data : Bytes}

/-! ## Texts and byte strings -/

/-- Bytes that are not empty are read as the owned byte string that they are. -/
lemma decode_octets (hdata : data ≠ []) : decode .octets data = .ok (some (.octets data)) := by
  unfold decode
  rw [if_neg (mt List.isEmpty_iff.mp hdata)]

/-- Bytes that are not empty are read as the shared byte string that they are. -/
lemma decode_buffer (hdata : data ≠ []) : decode .buffer data = .ok (some (.buffer data)) := by
  unfold decode
  rw [if_neg (mt List.isEmpty_iff.mp hdata)]

/-- Bytes that are not empty are read as the text that they encode. -/
lemma decode_text {s : String} (hdata : data ≠ []) (hs : Utf8.text? data = some s) :
    decode .text data = .ok (some (.text s)) := by
  unfold decode
  rw [if_neg (mt List.isEmpty_iff.mp hdata)]
  dsimp only
  rw [Utf8.decode, hs]

/-! ## Wrapped values -/

lemma verbatim?_wrapped (h : ty.wrapped = true) (v : Value) : verbatim? ty v = none := by
  cases ty with
  | scalar s => cases s <;> first | rfl | cases h
  | _ => rfl

/-- A wrapped value is stored as nothing when it is written as nil. -/
lemma encode_wrapped (h : ty.wrapped = true) (hv : v.refusal? = none) :
    e.encode ty v = .ok (if v.write = MessagePack.nil then [] else e.wrap v.write) := by
  unfold encode
  rw [verbatim?_wrapped h, hv]
  dsimp only
  by_cases hnil : v.write = MessagePack.nil
  · rw [if_pos hnil, if_pos (beq_iff_eq.mpr hnil)]
  · rw [if_neg hnil, if_neg (mt beq_iff_eq.mp hnil)]

/-- What is not stored as it is is read from its payload. -/
lemma decode_wrapped (h : ty.wrapped = true) {payload : Bytes} (hdata : data ≠ [])
    (hpayload : unwrap data = .ok payload) (hread : ty.read payload = some v) :
    decode ty data = .ok (some v) := by
  have hcontent : data.isEmpty ≠ true := mt List.isEmpty_iff.mp hdata
  unfold decode
  rw [if_neg hcontent]
  split
  · cases h
  · cases h
  · cases h
  · rw [hpayload]
    dsimp only
    rw [hread]

/-- A wrapped value is not a text or a byte string. -/
lemma isVerbatim_wrapped {outer : Ty} (h : ty.wrapped = true) (hty : ty.storable = true)
    (hadmits : Ty.admits outer ty v = true) : v.isVerbatim = false := by
  cases v with
  | text _ | octets _ | buffer _ =>
    cases ty with
    | scalar s =>
      cases s with
      | text | octets | buffer | literal => cases h
      | dynamic name => cases hty
      | _ => cases hadmits
    | _ => cases hadmits
  | _ => rfl

/-- **A wrapped value comes back** from any bytes that hold what it is written as. -/
theorem decode_of_holds (hdata : Holds v.write data) (h : ty.wrapped = true)
    (hty : ty.storable = true) (hadmits : Ty.admits ty ty v = true)
    (hv : v.Within Reader.depthLimit) (hwrite : v.write ≠ MessagePack.nil) :
    decode ty data = .ok (some v) := by
  have hfound := Ty.readFrom_write hty hadmits hv hwrite []
  rw [List.append_nil] at hfound
  have hread : ty.read v.write = some v := by
    rw [Ty.read, hfound, Option.map_some]
  exact decode_wrapped h hdata.ne_nil hdata.unwrap hread

/-! ## All values -/

/-- What is stored as nothing: nothing itself, empty texts and byte strings, and what is written as
nil. -/
def Vanishes (v : Value) : Prop :=
  v = .unit ∨ v = .text "" ∨ v = .octets [] ∨ v = .buffer [] ∨ v.write = MessagePack.nil

/-- A wrapped value is stored as nothing only when it is written as nil. -/
lemma vanishes_wrapped (h : v.isVerbatim = false) : Vanishes v ↔ v.write = MessagePack.nil := by
  constructor
  · rintro (rfl | rfl | rfl | rfl | hwrite)
    · rfl
    · cases h
    · cases h
    · cases h
    · exact hwrite
  · exact fun hwrite => .inr (.inr (.inr (.inr hwrite)))

/-- A value that is not written as nil is stored as nothing only when it is stored as it is. -/
lemma vanishes_verbatim {s : Scalar} (hs : s.nestable = true)
    (hadmits : Ty.admits (.scalar s) (.scalar s) v = true) (hv : v.lengthsFit = true)
    (hlead : v.lead ≠ .nil) :
    Vanishes v ↔ v = .text "" ∨ v = .octets [] ∨ v = .buffer [] := by
  have hnested : Ty.Nested (.scalar s) (.scalar s) v := ⟨rfl, hs, hadmits⟩
  have hwrite : v.write ≠ MessagePack.nil := mt (hnested.lead_eq_nil hv) hlead
  constructor
  · rintro (rfl | h | h | h | h)
    · exact absurd rfl hlead
    · exact .inl h
    · exact .inr (.inl h)
    · exact .inr (.inr h)
    · exact absurd h hwrite
  · rintro (h | h | h)
    · exact .inr (.inl h)
    · exact .inr (.inr (.inl h))
    · exact .inr (.inr (.inr (.inl h)))

/-- **A value is stored**, as nothing only if it vanishes, and comes back unless it does.

**Proof sketch.** A wrapped value is written, and its payload comes back from its wrapping and is
read as the value. The other types are those of nothing, texts and byte strings, which are stored
as they are. -/
theorem stored (hty : ty.storable = true) (hadmits : Ty.admits ty ty v = true)
    (hv : v.Within Reader.depthLimit) :
    ∃ data, e.encode ty v = .ok data ∧ (data = [] ↔ Vanishes v) ∧
      (data ≠ [] → decode ty data = .ok (some v)) := by
  by_cases h : ty.wrapped = true
  · have hrefusal := Ty.refusal?_of_storable (Ty.enclosing_of_storable hty) hty hadmits
    have hencode := e.encode_wrapped h hrefusal
    have hvanish := vanishes_wrapped (isVerbatim_wrapped h hty hadmits)
    by_cases hnil : v.write = MessagePack.nil
    · rw [if_pos hnil] at hencode
      exact ⟨[], hencode, iff_of_true rfl (hvanish.mpr hnil), fun hdata => absurd rfl hdata⟩
    · rw [if_neg hnil] at hencode
      exact ⟨e.wrap v.write, hencode, iff_of_false (e.wrap_ne_nil _) (mt hvanish.mp hnil),
        fun _ => decode_of_holds (e.holds_wrap _) h hty hadmits hv hnil⟩
  · cases ty with
    | scalar s =>
      cases s with
      | unit =>
        cases v with
        | unit => exact ⟨[], rfl, iff_of_true rfl (.inl rfl), fun hdata => absurd rfl hdata⟩
        | _ => cases hadmits
      | text =>
        cases v with
        | text t =>
          refine ⟨Utf8.encode t, rfl, ?_, fun hdata => decode_text hdata (Utf8.text?_encode t)⟩
          rw [vanishes_verbatim rfl hadmits hv.lengths Token.noConfusion, Utf8.encode_eq_nil]
          simp
        | _ => cases hadmits
      | octets =>
        cases v with
        | octets bs =>
          refine ⟨bs, rfl, ?_, decode_octets⟩
          rw [vanishes_verbatim rfl hadmits hv.lengths Token.noConfusion]
          simp
        | _ => cases hadmits
      | buffer =>
        cases v with
        | buffer bs =>
          refine ⟨bs, rfl, ?_, decode_buffer⟩
          rw [vanishes_verbatim rfl hadmits hv.lengths Token.noConfusion]
          simp
        | _ => cases hadmits
      | literal => cases hty
      | _ => exact absurd rfl h
    | _ => exact absurd rfl h

/-- **A value is kept** by an envelope of any level. -/
theorem keeps_of_storable (hty : ty.storable = true) (hadmits : Ty.admits ty ty v = true)
    (hv : v.Within Reader.depthLimit) : ∃ data, e.Keeps ty v data := by
  obtain ⟨data, hencode, -, hdecode⟩ := e.stored hty hadmits hv
  exact ⟨data, hadmits, hencode, Classical.or_iff_not_imp_left.mpr hdecode⟩

/-- **The round trip.** A value of a storable type, nested no deeper than the reader goes and with
lengths that fit their heads, is stored by an envelope of any level. It is stored as nothing exactly
if it vanishes, and then nothing is read; else it is read at the same type.

Bytes that are not empty are read as byte strings of either kind, and as a text if they are UTF-8,
and what is read is stored as these bytes.

**Proof sketch.** `Envelope.stored`; and texts and byte strings are stored as they are. -/
theorem round_trip (e : Envelope) :
    (∀ (ty : Ty) (v : Value), ty.storable = true → Ty.admits ty ty v = true → v.depth ≤ 1023 →
      v.lengthsFit = true →
      ∃ data, e.encode ty v = .ok data ∧ (data = [] ↔ Vanishes v) ∧
        decode ty data = .ok (if data = [] then none else some v)) ∧
    ∀ data : Bytes, data ≠ [] →
      (∀ s, Utf8.text? data = some s →
        ∃ v, decode .text data = .ok (some v) ∧ e.encode .text v = .ok data) ∧
      (∃ v, decode .octets data = .ok (some v) ∧ e.encode .octets v = .ok data) ∧
      ∃ v, decode .buffer data = .ok (some v) ∧ e.encode .buffer v = .ok data := by
  refine ⟨fun ty v hty hadmits hdepth hlengths => ?_, fun data hdata => ⟨fun s hs => ?_, ?_, ?_⟩⟩
  · obtain ⟨data, hencode, hvanish, hdecode⟩ := e.stored hty hadmits ⟨hdepth, hlengths⟩
    refine ⟨data, hencode, hvanish, ?_⟩
    by_cases hdata : data = []
    · rw [if_pos hdata, hdata]
      rfl
    · rw [if_neg hdata, hdecode hdata]
  · refine ⟨.text s, decode_text hdata hs, ?_⟩
    exact congrArg Except.ok (Utf8.encode_of_text? hs)
  · exact ⟨.octets data, decode_octets hdata, rfl⟩
  · exact ⟨.buffer data, decode_buffer hdata, rfl⟩

/-- A list with two links, of a record type that refers to itself, and a text come back. -/
theorem round_trip_links :
    let link : Ty := .record "Link" [("label", .text), ("next", .option .self)]
    let last : Value := .record [("label", .text "b"), ("next", .absent)]
    let first : Value := .record [("label", .text "a"), ("next", .present last)]
    (∃ data, Envelope.encode ⟨19⟩ link first = .ok data ∧ (data = [] ↔ Vanishes first) ∧
      decode link data = .ok (if data = [] then none else some first)) ∧
    ∃ v, decode .text [0x61, 0x62] = .ok (some v) ∧
      Envelope.encode ⟨19⟩ .text v = .ok [0x61, 0x62] :=
  ⟨(round_trip ⟨19⟩).1 _ _ (by decide) (by decide) (by decide) (by decide),
    ((round_trip ⟨19⟩).2 [0x61, 0x62] (by decide)).1 "ab" (by decide)⟩

end Envelope

end LayeredCache
