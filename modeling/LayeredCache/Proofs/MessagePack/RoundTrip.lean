import LayeredCache.MessagePack.Reader
import LayeredCache.MessagePack.Writer
import LayeredCache.Proofs.MessagePack.Nested
import LayeredCache.Proofs.Named

/-!
# Values that are written are read

A value of a type whose values come back wherever they stand is read from its written form, with
all bytes after it left over, as long as it is not nested too deep and its lengths fit their heads.

The written form starts with a token, the value's lead, and its body follows. Reading finds the lead
first and then decides by the type how to read the body, so the proof is about bodies: the reader of
each kind of container reads the forms of the parts one after the other if each part can be read.

## Main definitions

* `Value.lead`, `Value.body` — the first token of a written form and what follows it.
* `Ty.Returns` — a value is read at a type from its written form.

## Main results

* `Ty.Nested.read_write` — the lead and the body are found.
* `Ty.Nested.returns` — nested values are read from their written forms.
* `Ty.Nested.lead_ne_nil` — values of a type that is not nilable are not written as nil.
* `Ty.readFrom_write` — values that nothing stands around are read unless they are written as nil.
-/

set_option autoImplicit false

namespace LayeredCache

open MessagePack MessagePack.Reader

/-! ## Lead and body -/

namespace Value

/-- The token that the written form of a value starts with. -/
def lead : Value → Token
  | .unit => .nil
  | .bool b => .bool b
  | .int i => if 0 ≤ i then .unsigned i.toNat else .signed i
  | .float32 bits => .float32 bits
  | .float64 bits => .float64 bits
  | .char c => .text (Utf8.encode c.toString)
  | .text s => .text (Utf8.encode s)
  | .octets bs => .array bs.length (bs.length < 16)
  | .buffer bs => .binary bs
  | .absent => .nil
  | .present v => v.lead
  | .list vs => .array vs.length (vs.length < 16)
  | .map es => .map es.length
  | .record fs => .map fs.length
  | .token => .array 0 true
  | .choice case none => .text (Utf8.encode case)
  | .choice _ (some _) => .map 1
  | .sealed _ => .nil

/-- What follows the lead in the written form of a value. -/
def body : Value → Bytes
  | .octets bs => bs.flatMap fun b => writeUnsigned b.toNat
  | .present v => v.body
  | .list vs => writeAll vs
  | .map es => writeEntries es
  | .record fs => writeFields fs
  | .choice case (some v) => writeText case ++ v.write
  | _ => []

end Value

namespace Ty.Nested

variable {outer ty : Ty} {levels : Nat} {v : Value}

/-- An integer type has 64 bits at most. -/
lemma int_bounds {i : Int} (h : Nested outer ty (.int i)) :
    -0x8000000000000000 ≤ i ∧ i < 0x10000000000000000 := by
  obtain ⟨-, hty, hv⟩ := h
  cases ty with
  | scalar s =>
    cases s with
    | int k =>
      obtain ⟨signed, width⟩ := k
      have hi : IntKind.contains ⟨signed, width⟩ i = true := hv
      rw [IntKind.contains, Bool.and_eq_true, decide_eq_true_iff, decide_eq_true_iff] at hi
      cases signed <;> cases width <;>
        simp [IntKind.least, IntKind.greatest, Width.bits] at hi <;> omega
    | dynamic name => cases hty
    | _ => cases hv
  | _ => cases hv

/-- What is present belongs to a type itself. -/
lemma of_present (h : Nested outer ty (.present v)) : ∃ t, Nested outer t v := by
  obtain ⟨houter, hty, hv⟩ := h
  cases ty with
  | option t =>
    rw [Ty.nestable, Bool.and_eq_true] at hty
    exact ⟨t, houter, hty.2, hv⟩
  | scalar s => cases s <;> cases hv
  | _ => cases hv

/-- Nothing that refuses to be written is nested. -/
lemma not_sealed {reason : String} : ¬ Nested outer ty (.sealed reason) :=
  fun h => Option.some_ne_none _ h.refusal?_eq_none

/-- **The lead and the body** of a value are found in its written form. -/
theorem read_write (h : Nested outer ty v) (hv : v.lengthsFit = true) (rest : Bytes) :
    Token.read (v.write ++ rest) = some (v.lead, v.body ++ rest) := by
  induction v using Value.induction_parts generalizing outer ty with
  | step v ih =>
    cases v with
    | unit | absent | token => rfl
    | bool b => cases b <;> rfl
    | int i => exact Token.read_writeInt rest h.int_bounds.1 h.int_bounds.2
    | float32 bits => exact Token.read_float32 rest bits
    | float64 bits => exact Token.read_float64 rest bits
    | char c =>
      exact Token.read_text rest (Nat.lt_of_le_of_lt (Utf8.length_encode_toString_le c) (by decide))
    | text s => exact Token.read_text rest (of_decide_eq_true hv)
    | octets bs =>
      rw [Value.write, List.append_assoc]
      exact Token.read_arrayHead _ (of_decide_eq_true hv)
    | buffer bs => exact Token.read_binary rest (of_decide_eq_true hv)
    | present v =>
      obtain ⟨t, ht⟩ := h.of_present
      exact ih v (List.mem_singleton.mpr rfl) ht hv
    | list vs =>
      rw [Value.lengthsFit, Bool.and_eq_true] at hv
      rw [Value.write, List.append_assoc]
      exact Token.read_arrayHead _ (of_decide_eq_true hv.1)
    | map es =>
      rw [Value.lengthsFit, Bool.and_eq_true] at hv
      rw [Value.write, List.append_assoc]
      exact Token.read_mapHead _ (of_decide_eq_true hv.1)
    | record fs =>
      rw [Value.lengthsFit, Bool.and_eq_true] at hv
      rw [Value.write, List.append_assoc]
      exact Token.read_mapHead _ (of_decide_eq_true hv.1)
    | choice case payload =>
      cases payload with
      | none => exact Token.read_text rest (of_decide_eq_true hv)
      | some v =>
        rw [Value.write, List.append_assoc, List.append_assoc, ← List.append_assoc (writeText case)]
        exact Token.read_mapHead _ (by decide)
    | sealed reason => exact absurd h not_sealed

end Ty.Nested

/-! ## Parts, one after the other -/

namespace MessagePack.Reader

/-- Values that can be read each. -/
lemma times_writeAll {read : Bytes → Option (Value × Bytes)} {vs : List Value}
    (hread : ∀ v ∈ vs, ∀ rest, read (v.write ++ rest) = some (v, rest)) (rest : Bytes) :
    times read vs.length (Value.writeAll vs ++ rest) = some (vs, rest) := by
  induction vs with
  | nil => rfl
  | cons v vs ih =>
    rw [List.forall_mem_cons] at hread
    rw [Value.writeAll, List.append_assoc, List.length_cons, times, hread.1]
    dsimp only
    rw [ih hread.2]

/-- Entries whose keys and values can be read each. -/
lemma entries_writeEntries {key value : Bytes → Option (Value × Bytes)}
    {es : List (Value × Value)}
    (hread : ∀ e ∈ es, (∀ rest, key (e.1.write ++ rest) = some (e.1, rest)) ∧
      ∀ rest, value (e.2.write ++ rest) = some (e.2, rest)) (rest : Bytes) :
    entries key value es.length (Value.writeEntries es ++ rest) = some (es, rest) := by
  induction es with
  | nil => rfl
  | cons e es ih =>
    rw [List.forall_mem_cons] at hread
    rw [Value.writeEntries, List.append_assoc, List.append_assoc, List.length_cons, entries,
      hread.1.1]
    dsimp only
    rw [hread.1.2]
    dsimp only
    rw [ih hread.2]

/-- The bytes of an owned byte string. -/
lemma octetTimes_flatMap (bs rest : Bytes) :
    octetTimes bs.length ((bs.flatMap fun b => writeUnsigned b.toNat) ++ rest) =
      some (bs, rest) := by
  induction bs with
  | nil => rfl
  | cons b bs ih =>
    have hb : b.toNat < 256 := b.toNat_lt
    have hoctet : octetOf? (.unsigned b.toNat) = some b := by
      have hrange : (0 ≤ (b.toNat : Int) && (b.toNat : Int) < 256) = true := by
        rw [Bool.and_eq_true, decide_eq_true_iff, decide_eq_true_iff]
        omega
      rw [octetOf?, integerOf?]
      dsimp only
      rw [if_pos hrange, Int.toNat_natCast, UInt8.ofNat_toNat]
    rw [List.flatMap_cons, List.append_assoc, List.length_cons, octetTimes,
      Token.read_writeUnsigned _ (Nat.lt_trans hb (by decide))]
    dsimp only
    rw [hoctet, ih]

/-- Values of several types that can be read each. -/
lemma eachOf_writeAll {inside : Inside} {outer : Ty} {R : Ty → Value → Prop} {ts : List Ty}
    {vs : List Value} (hvs : List.Forall₂ R ts vs)
    (hread : ∀ v ∈ vs, ∀ t, R t v →
      ∀ rest, inside.value outer t (v.write ++ rest) = some (v, rest)) (rest : Bytes) :
    eachOf inside outer ts (Value.writeAll vs ++ rest) = some (vs, rest) := by
  induction hvs with
  | nil => rfl
  | cons hv _ ih =>
    rw [List.forall_mem_cons] at hread
    rw [Value.writeAll, List.append_assoc, eachOf, hread.1 _ hv]
    dsimp only
    rw [ih hread.2]

end MessagePack.Reader

/-! ## Maps -/

namespace Value

lemma keyBelow_trans {a b c : Value} (hab : a.keyBelow b = true) (hbc : b.keyBelow c = true) :
    a.keyBelow c = true := by
  cases b with
  | int j =>
    cases a with
    | int i =>
      cases c with
      | int k => exact decide_eq_true (Int.lt_trans (of_decide_eq_true hab) (of_decide_eq_true hbc))
      | _ => cases hbc
    | _ => cases hab
  | text t =>
    cases a with
    | text s =>
      cases c with
      | text u =>
        exact decide_eq_true (String.lt_trans (of_decide_eq_true hab) (of_decide_eq_true hbc))
      | _ => cases hbc
    | _ => cases hab
  | _ => cases hbc

lemma keyBelow_asymm {a b : Value} (hab : a.keyBelow b = true) : b.keyBelow a = false := by
  cases a with
  | int i =>
    cases b with
    | int j => exact decide_eq_false (Int.lt_asymm (of_decide_eq_true hab))
    | _ => rfl
  | text s =>
    cases b with
    | text t => exact decide_eq_false (String.lt_asymm (of_decide_eq_true hab))
    | _ => rfl
  | _ => cases hab

/-- The entries of a map that stand in order. -/
def Ascending (es : List (Value × Value)) : Prop :=
  es.Pairwise fun a b => a.1.keyBelow b.1 = true

lemma ascending_of_keysAscend {es : List (Value × Value)} (h : keysAscend es = true) :
    Ascending es := by
  induction es with
  | nil => exact .nil
  | cons e es ih =>
    cases es with
    | nil => exact List.pairwise_singleton _ _
    | cons f es =>
      rw [keysAscend, Bool.and_eq_true] at h
      have hrest := ih h.2
      refine List.pairwise_cons.mpr ⟨fun g hg => ?_, hrest⟩
      obtain rfl | hg := List.mem_cons.mp hg
      · exact h.1
      · exact keyBelow_trans h.1 ((List.pairwise_cons.mp hrest).1 g hg)

/-- An entry whose key is above all others comes last. -/
lemma insertEntry_above {k v : Value} {es : List (Value × Value)}
    (h : ∀ e ∈ es, e.1.keyBelow k = true) : insertEntry k v es = es ++ [(k, v)] := by
  induction es with
  | nil => rfl
  | cons e es ih =>
    rw [List.forall_mem_cons] at h
    rw [insertEntry, keyBelow_asymm h.1, if_neg Bool.false_ne_true, if_pos h.1, ih h.2,
      List.cons_append]

/-- Entries in order are the entries of the map that is built from them. -/
lemma mapOf_ascending {es : List (Value × Value)} (h : keysAscend es = true) :
    mapOf es = .map es := by
  have hbuilt : ∀ es acc, Ascending (acc ++ es) →
      es.foldl (fun es (e : Value × Value) => insertEntry e.1 e.2 es) acc = acc ++ es := by
    intro es
    induction es with
    | nil => intro acc _; rw [List.append_nil, List.foldl_nil]
    | cons e es ih =>
      intro acc hacc
      have habove : ∀ f ∈ acc, f.1.keyBelow e.1 = true := fun f hf =>
        (List.pairwise_append.mp hacc).2.2 f hf e List.mem_cons_self
      rw [List.append_cons] at hacc
      rw [List.foldl_cons, insertEntry_above habove, ih _ hacc, List.append_assoc,
        List.singleton_append]
  exact congrArg Value.map (hbuilt es [] (ascending_of_keysAscend h))

end Value

/-! ## Records -/

namespace MessagePack.Reader

/-- A key with the bytes of a name means that name. -/
lemma means_name {name other : String} {position : Nat} :
    (Key.name (Utf8.encode name)).means other position = true ↔ name = other := by
  rw [Key.means, beq_iff_eq, Utf8.encode_inj]

/-- A name means the one field that has it. -/
lemma field?_name {fields : List (String × Ty)} {name : String} {ty : Ty}
    (hnodup : (fields.map Prod.fst).Nodup) (h : (name, ty) ∈ fields) (position : Nat) :
    field? (.name (Utf8.encode name)) position fields = some (name, ty) := by
  induction fields generalizing position with
  | nil => cases h
  | cons f fields ih =>
    obtain ⟨other, t⟩ := f
    rw [List.map_cons, List.nodup_cons] at hnodup
    rw [field?]
    obtain heq | hrest := List.mem_cons.mp h
    · cases heq
      rw [if_pos (means_name.mpr rfl)]
    · have hmem : name ∈ fields.map Prod.fst := List.mem_map_of_mem hrest
      have hne : name ≠ other := fun heq => hnodup.1 (heq ▸ hmem)
      rw [if_neg (means_name.not.mpr hne), ih hnodup.2 hrest]

/-- Entries of a record whose values can be read each, under names that are all different and mean
one of its fields.

**Proof sketch.** Induction on the entries: the next one's name means its field, and the field has
not been found yet, so its value is put before those found. -/
lemma recordEntries_writeFields {inside : Inside} {outer : Ty} {fields : List (String × Ty)}
    (hnodup : (fields.map Prod.fst).Nodup) {found vs : List (String × Value)}
    (hnames : (found.map Prod.fst ++ vs.map Prod.fst).Nodup)
    (hlengths : ∀ v ∈ vs, (Utf8.encode v.1).length < lengthLimit)
    (hread : ∀ v ∈ vs, ∃ t, (v.1, t) ∈ fields ∧
      ∀ rest, inside.value outer t (v.2.write ++ rest) = some (v.2, rest)) (rest : Bytes) :
    recordEntries inside outer fields vs.length found (Value.writeFields vs ++ rest) =
      some (vs.reverse ++ found, rest) := by
  induction vs generalizing found with
  | nil => rfl
  | cons v vs ih =>
    obtain ⟨name, v⟩ := v
    rw [List.forall_mem_cons] at hlengths hread
    obtain ⟨⟨t, hfield, hv⟩, hread⟩ := hread
    have hnew : found.lookup name = none := by
      refine Named.lookup_eq_none fun hmem => ?_
      exact (List.nodup_append.mp hnames).2.2 name hmem name List.mem_cons_self rfl
    have hnext : (((name, v) :: found).map Prod.fst ++ vs.map Prod.fst).Nodup :=
      List.perm_middle.nodup_iff.mp hnames
    rw [Value.writeFields, List.append_assoc, List.append_assoc, List.length_cons, recordEntries,
      writeText, Token.read_text _ hlengths.1]
    dsimp only [keyOf?]
    rw [field?_name hnodup hfield]
    dsimp only
    rw [hnew, Option.isSome_none, if_neg Bool.false_ne_true, hv]
    dsimp only
    rw [ih hnext hlengths.2 hread, List.reverse_cons, List.append_assoc, List.singleton_append]

/-- The fields of a record are put together from those found if each has been found. -/
lemma assemble_found {found : List (String × Value)} {fields : List (String × Ty)}
    {vs : List (String × Value)} (hnames : fields.map Prod.fst = vs.map Prod.fst)
    (hfound : ∀ v ∈ vs, found.lookup v.1 = some v.2) : assemble found fields = some vs := by
  induction fields generalizing vs with
  | nil =>
    obtain rfl := List.map_eq_nil_iff.mp hnames.symm
    rfl
  | cons f fields ih =>
    obtain ⟨v, vs, rfl, hname, hrest⟩ := List.map_eq_cons_iff.mp hnames.symm
    rw [List.forall_mem_cons] at hfound
    unfold assemble
    rw [← hname, hfound.1, ih hrest.symm hfound.2]

/-- The fields of a record that can be read each. -/
lemma recordOf?_writeFields {inside : Inside} {outer : Ty} {fields : List (String × Ty)}
    {vs : List (String × Value)} (hnodup : (fields.map Prod.fst).Nodup)
    (hnames : fields.map Prod.fst = vs.map Prod.fst)
    (hlengths : ∀ v ∈ vs, (Utf8.encode v.1).length < lengthLimit)
    (hread : ∀ v ∈ vs, ∃ t, (v.1, t) ∈ fields ∧
      ∀ rest, inside.value outer t (v.2.write ++ rest) = some (v.2, rest)) (rest : Bytes) :
    recordOf? (some inside) outer fields (.map vs.length) (Value.writeFields vs ++ rest) =
      some (.record vs, rest) := by
  have hvnodup : (vs.map Prod.fst).Nodup := hnames ▸ hnodup
  have hentries : recordEntries inside outer fields vs.length [] (Value.writeFields vs ++ rest) =
      some (vs.reverse, rest) := by
    have hnames : (([] : List (String × Value)).map Prod.fst ++ vs.map Prod.fst).Nodup := hvnodup
    rw [recordEntries_writeFields hnodup hnames hlengths hread, List.append_nil]
  have hfound : assemble vs.reverse fields = some vs := by
    have hback : (vs.reverse.map Prod.fst).Nodup :=
      ((List.reverse_perm vs).map Prod.fst).nodup_iff.mpr hvnodup
    exact assemble_found hnames fun v hv =>
      Named.lookup_of_mem hback (List.mem_reverse.mpr hv)
  rw [recordOf?, Option.bind_some, hentries]
  dsimp only
  rw [hfound]
  rfl

/-! ## Choices -/

/-- The first case with a name, if it has no payload. -/
lemma bareCase?_name {cases : List (String × Option Ty)} {case : String}
    (h : Ty.payload? case cases = some none) (position : Nat) :
    bareCase? (.name (Utf8.encode case)) position cases = some (.choice case none) := by
  induction cases generalizing position with
  | nil => cases h
  | cons c cs ih =>
    obtain ⟨name, payload⟩ := c
    rw [Ty.payload?] at h
    unfold bareCase?
    by_cases hname : name = case
    · subst hname
      rw [if_pos (beq_self_eq_true name)] at h
      obtain rfl := Option.some.inj h
      rw [if_pos (means_name.mpr rfl)]
    · rw [if_neg (mt beq_iff_eq.mp hname)] at h
      rw [if_neg (means_name.not.mpr (Ne.symm hname)), ih h]

end MessagePack.Reader

/-- The first case with a name, if its payload can be read. -/
lemma Ty.ofCase_name {outer : Ty} {inside : Option Inside} {cases : List (String × Option Ty)}
    {case : String} {t : Ty} {v : Value} {bs rest : Bytes}
    (h : Ty.payload? case cases = some (some t))
    (hread : valueWith inside outer t bs = some (v, rest)) (position : Nat) :
    Ty.ofCase outer inside (.name (Utf8.encode case)) position cases bs =
      some (.choice case (some v), rest) := by
  induction cases generalizing position with
  | nil => cases h
  | cons c cs ih =>
    obtain ⟨name, payload⟩ := c
    rw [Ty.payload?] at h
    by_cases hname : name = case
    · subst hname
      rw [if_pos (beq_self_eq_true name)] at h
      obtain rfl := Option.some.inj h
      unfold valueWith at hread
      rw [Ty.ofCase, if_pos (means_name.mpr rfl)]
      split at hread
      · cases hread
      · rw [hread, Option.map_some]
    · rw [if_neg (mt beq_iff_eq.mp hname)] at h
      have hother : (Key.name (Utf8.encode case)).means name position ≠ true :=
        means_name.not.mpr (Ne.symm hname)
      cases payload with
      | none => rw [Ty.ofCase, if_neg hother, ih h]
      | some p => rw [Ty.ofCase, if_neg hother, ih h]

/-! ## All values -/

namespace Ty

/-- A token that is not nil starts something present. -/
lemma ofToken_option {outer t : Ty} {inside : Option Inside} {token : Token} {bs : Bytes}
    (h : token ≠ .nil) :
    ofToken outer inside (.option t) token bs =
      (ofToken outer inside t token bs).map fun (v, bs) => (.present v, bs) := by
  cases token with
  | nil => exact absurd rfl h
  | _ => rfl

/-- A value is read at a type from its written form, when `levels` containers may be entered. -/
def Returns (levels : Nat) (outer ty : Ty) (v : Value) : Prop :=
  ∀ rest, valueWith (insideAt levels) outer ty (v.write ++ rest) = some (v, rest)

namespace Nested

variable {outer ty : Ty} {levels : Nat} {v : Value}

/-- A value is read if its body is. -/
lemma returns_of_body (h : Nested outer ty v) (hv : v.Within levels)
    (hbody : ∀ rest, ofToken outer (insideAt levels) ty v.lead (v.body ++ rest) =
      some (v, rest)) : Returns levels outer ty v := by
  intro rest
  rw [valueWith, h.read_write hv.lengths]
  exact hbody rest

/-- A value of a type that is not nilable is not written as nil. -/
lemma lead_ne_nil (h : Nested outer ty v) (hty : ty.nilable = false) : v.lead ≠ .nil := by
  have hv := h.admits
  cases v with
  | unit =>
    cases ty with
    | scalar s =>
      cases s with
      | unit => cases hty
      | dynamic name => cases h.nestable
      | _ => cases hv
    | _ => cases hv
  | absent | present _ =>
    cases ty with
    | scalar s => cases s <;> cases hv
    | option t => cases hty
    | _ => cases hv
  | sealed reason => exact absurd h not_sealed
  | int i =>
    unfold Value.lead
    split <;> exact Token.noConfusion
  | choice case payload => cases payload <;> exact Token.noConfusion
  | _ => exact Token.noConfusion

/-- What is written as nil starts with nil. -/
lemma lead_eq_nil (h : Nested outer ty v) (hv : v.lengthsFit = true)
    (hwrite : v.write = MessagePack.nil) : v.lead = .nil := by
  have hnil : Token.read (MessagePack.nil ++ []) = some (.nil, []) := rfl
  have hread := h.read_write hv []
  rw [hwrite, hnil] at hread
  exact (congrArg Prod.fst (Option.some.inj hread)).symm

/-- A type that is not optional and has a value that is not written as nil is not nilable. -/
lemma nilable_eq_false (h : Nested outer ty v) (hty : ¬ ∃ t, ty = .option t)
    (hwrite : v.write ≠ MessagePack.nil) : ty.nilable = false := by
  have hv := h.admits
  cases ty with
  | option t => exact absurd ⟨t, rfl⟩ hty
  | scalar s =>
    cases s with
    | unit =>
      cases v with
      | unit => exact absurd rfl hwrite
      | _ => cases hv
    | _ => rfl
  | _ => rfl

/-- The body of a value without parts. -/
lemma ofToken_scalar {s : Scalar} (h : Nested outer (.scalar s) v) (hv : v.Within levels)
    (rest : Bytes) :
    ofToken outer (insideAt levels) (.scalar s) v.lead (v.body ++ rest) = some (v, rest) := by
  show scalarOf? (insideAt levels) s v.lead (v.body ++ rest) = some (v, rest)
  obtain ⟨-, hkind, hadmits⟩ := h
  rw [Ty.admits] at hadmits
  cases s with
  | unit =>
    cases v with
    | unit => rfl
    | _ => cases hadmits
  | bool =>
    cases v with
    | bool b => rfl
    | _ => cases hadmits
  | int k =>
    cases v with
    | int i =>
      have hi : integerOf? (Value.int i).lead = some i := by
        unfold Value.lead
        split
        · rw [integerOf?, Int.toNat_of_nonneg ‹_›]
        · rfl
      have hk : k.contains i = true := hadmits
      show (integerOf? (Value.int i).lead).bind _ = _
      rw [hi, Option.bind_some, if_pos hk]
      rfl
    | _ => cases hadmits
  | float32 =>
    cases v with
    | float32 bits =>
      show some (Value.float32 (UInt32.ofNat bits.toNat), rest) = _
      rw [UInt32.ofNat_toNat]
    | _ => cases hadmits
  | float64 =>
    cases v with
    | float64 bits =>
      show some (Value.float64 (UInt64.ofNat bits.toNat), rest) = _
      rw [UInt64.ofNat_toNat]
    | _ => cases hadmits
  | char =>
    cases v with
    | char c =>
      have hc : (Utf8.text? (Utf8.encode c.toString)).map String.toList = some [c] := by
        rw [Utf8.text?_encode, Option.map_some, Char.toString, String.toList_singleton]
      show scalarOf? _ .char (.text (Utf8.encode c.toString)) rest = _
      rw [scalarOf?, hc]
    | _ => cases hadmits
  | text =>
    cases v with
    | text t =>
      show (Utf8.text? (Utf8.encode t)).map _ = _
      rw [Utf8.text?_encode]
      rfl
    | _ => cases hadmits
  | octets =>
    cases v with
    | octets bs =>
      obtain ⟨inner, rfl⟩ := Nat.exists_eq_add_of_le' hv.depth
      exact congrArg (Option.map _) (octetTimes_flatMap bs rest)
    | _ => cases hadmits
  | buffer =>
    cases v with
    | buffer bs => rfl
    | _ => cases hadmits
  | token name =>
    cases v with
    | token => rfl
    | _ => cases hadmits
  | _ => cases hkind

/-- The body of a record whose fields can be read. -/
lemma ofToken_record {name : String} {fields : List (String × Ty)}
    (h : Nested outer (.record name fields) v) (hv : v.Within levels)
    (ih : ∀ w ∈ v.parts, ∀ {outer ty : Ty} {levels : Nat},
      Nested outer ty w → w.Within levels → Returns levels outer ty w) (rest : Bytes) :
    recordOf? (insideAt levels) (.record name fields) fields v.lead (v.body ++ rest) =
      some (v, rest) := by
  obtain ⟨vs, rfl, hnodup, hnames, hvs⟩ := h.record
  obtain ⟨-, inner, rfl, hinner⟩ := hv.record
  refine recordOf?_writeFields hnodup hnames (fun w hw => (hinner w hw).1) (fun w hw => ?_) rest
  obtain ⟨t, ht, hnested⟩ := hvs w hw
  exact ⟨t, ht, ih w.2 (List.mem_map_of_mem hw) hnested (hinner w hw).2⟩

/-- **Nested values are read** from their written forms.

**Proof sketch.** By induction on what the value is built from, one case for each kind of type. A
container is entered, so its parts have one level less; the payload of a choice and what is present
stand at the level of the whole. -/
theorem returns (h : Nested outer ty v) (hv : v.Within levels) : Returns levels outer ty v := by
  induction v using Value.induction_parts generalizing levels outer ty with
  | step v ih =>
    refine h.returns_of_body hv fun rest => ?_
    cases ty with
    | scalar s => exact h.ofToken_scalar hv rest
    | option t =>
      obtain ⟨hnil, rfl | ⟨w, rfl, hw⟩⟩ := h.option
      · rfl
      · -- the lead is not nil, so that it is not taken for something absent
        have hread := ih w (List.mem_singleton.mpr rfl) hw hv.present rest
        rw [valueWith, hw.read_write hv.lengths] at hread
        exact (ofToken_option (hw.lead_ne_nil hnil)).trans (congrArg (Option.map _) hread)
    | list t =>
      obtain ⟨vs, rfl, hvs⟩ := h.list
      obtain ⟨-, inner, rfl, hinner⟩ := hv.list
      have hread : times (valueWith (insideAt inner) outer t) vs.length
          (Value.writeAll vs ++ rest) = some (vs, rest) :=
        times_writeAll (fun w hw => ih w hw (hvs w hw) (hinner w hw)) rest
      exact congrArg (Option.map _) hread
    | array n t =>
      obtain ⟨vs, rfl, rfl, hvs⟩ := h.array
      obtain ⟨-, inner, rfl, hinner⟩ := hv.list
      have hread : times (valueWith (insideAt inner) outer t) vs.length
          (Value.writeAll vs ++ rest) = some (vs, rest) :=
        times_writeAll (fun w hw => ih w hw (hvs w hw) (hinner w hw)) rest
      exact (if_pos rfl).trans (congrArg (Option.map _) hread)
    | tuple ts =>
      obtain ⟨vs, rfl, hvs⟩ := h.tuple
      obtain ⟨-, inner, rfl, hinner⟩ := hv.list
      have hread : eachOf ⟨valueWith (insideAt inner), skipWith (insideAt inner)⟩ outer ts
          (Value.writeAll vs ++ rest) = some (vs, rest) := by
        refine eachOf_writeAll hvs (fun w hw t ht => ?_) rest
        exact ih w hw ht (hinner w hw)
      exact (if_pos hvs.length_eq.symm).trans (congrArg (Option.map _) hread)
    | map k t =>
      obtain ⟨es, rfl, hascend, hes⟩ := h.map
      obtain ⟨-, inner, rfl, hinner⟩ := hv.map
      have hread : entries (valueWith (insideAt inner) outer k) (valueWith (insideAt inner) outer t)
          es.length (Value.writeEntries es ++ rest) = some (es, rest) :=
        entries_writeEntries (fun e he =>
          ⟨ih e.1 (Value.key_mem_parts he) (hes e he).1 (hinner e he).1,
            ih e.2 (Value.value_mem_parts he) (hes e he).2 (hinner e he).2⟩) rest
      -- the reader puts the entries in order, and they stand in order
      have hmap : some (Value.mapOf es, rest) = some (Value.map es, rest) := by
        rw [Value.mapOf_ascending hascend]
      exact (congrArg (Option.map _) hread).trans hmap
    | record name fields => exact h.ofToken_record hv ih rest
    | self =>
      obtain ⟨name, fields, rfl, hrecord⟩ := h.self
      exact hrecord.ofToken_record hv ih rest
    | choice name cs =>
      obtain ⟨case, rfl, hcase⟩ | ⟨case, w, t, rfl, hcase, hw⟩ := h.choice
      · exact congrArg (Option.map _) (bareCase?_name hcase 0)
      · obtain ⟨hname, hwithin⟩ := hv.choice
        have hread := ih w (List.mem_singleton.mpr rfl) hw hwithin rest
        have hkey : Token.read (writeText case ++ (w.write ++ rest)) =
            some (.text (Utf8.encode case), w.write ++ rest) := by
          rw [writeText]
          exact Token.read_text _ hname
        show ofToken outer (insideAt levels) (.choice name cs) (.map 1)
          (writeText case ++ w.write ++ rest) = _
        rw [ofToken, List.append_assoc, hkey]
        exact ofCase_name hcase hread 0

end Nested

/-! ## Values that nothing stands around -/

variable {ty : Ty} {v : Value}

lemma enclosing_of_storable (h : ty.storable = true) : ty.enclosing = true := by
  cases ty with
  | record name fields => exact h
  | _ => rfl

/-- A value of a storable type can be written. -/
lemma refusal?_of_storable {outer : Ty} (houter : outer.enclosing = true)
    (hty : ty.storable = true) (hadmits : admits outer ty v = true) : v.refusal? = none := by
  induction v using Value.induction_parts generalizing ty with
  | step v ih =>
    cases ty with
    | option t =>
      cases v with
      | absent => rfl
      | present w =>
        have ht : t.storable = true := hty
        exact ih w (List.mem_singleton.mpr rfl) ht hadmits
      | _ => cases hadmits
    | _ => exact Nested.refusal?_eq_none ⟨houter, hty, hadmits⟩

/-- **A value of a storable type** that is not written as nil is found behind a lead that is not
nil.

**Proof sketch.** Induction on the value, through what is present only: a lead that is not nil
starts something present, and behind all options stands a type whose values come back wherever they
stand. It is the type with a single value, which is written as nil, or not nilable. -/
lemma found_of_storable {outer : Ty} {levels : Nat} (houter : outer.enclosing = true)
    (hty : ty.storable = true) (hadmits : admits outer ty v = true) (hv : v.Within levels)
    (hwrite : v.write ≠ MessagePack.nil) (rest : Bytes) :
    Token.read (v.write ++ rest) = some (v.lead, v.body ++ rest) ∧ v.lead ≠ .nil ∧
      ofToken outer (insideAt levels) ty v.lead (v.body ++ rest) = some (v, rest) := by
  induction v using Value.induction_parts generalizing ty with
  | step v ih =>
    by_cases hoption : ∃ t, ty = .option t
    · obtain ⟨t, rfl⟩ := hoption
      cases v with
      | absent => exact absurd rfl hwrite
      | present w =>
        have ht : t.storable = true := hty
        obtain ⟨hread, hlead, hbody⟩ :=
          ih w (List.mem_singleton.mpr rfl) ht hadmits hv.present hwrite
        exact ⟨hread, hlead, (ofToken_option hlead).trans (congrArg (Option.map _) hbody)⟩
      | _ => cases hadmits
    · have hnestable : ty.nestable = true := by
        cases ty with
        | option t => exact absurd ⟨t, rfl⟩ hoption
        | _ => exact hty
      have h : Nested outer ty v := ⟨houter, hnestable, hadmits⟩
      have hnil : ty.nilable = false := h.nilable_eq_false hoption hwrite
      have hread := h.read_write hv.lengths rest
      have hbody := h.returns hv rest
      rw [valueWith, hread] at hbody
      exact ⟨hread, h.lead_ne_nil hnil, hbody⟩

/-- **A value of a storable type is read** from its written form, unless that is nil. -/
theorem readFrom_write (hty : ty.storable = true) (hadmits : admits ty ty v = true)
    (hv : v.Within depthLimit) (hwrite : v.write ≠ MessagePack.nil) (rest : Bytes) :
    ty.readFrom (v.write ++ rest) = some (v, rest) := by
  obtain ⟨hread, -, hbody⟩ :=
    found_of_storable (enclosing_of_storable hty) hty hadmits hv hwrite rest
  rw [readFrom, valueWith, hread]
  exact hbody

end Ty

end LayeredCache
