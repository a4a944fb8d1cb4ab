import LayeredCache.MessagePack.Token
import LayeredCache.Number.Binary
import LayeredCache.Text.Utf8
import LayeredCache.Value

/-!
# Reading values from MessagePack

A byte string is read at a type. The reader is lenient where the type leaves no doubt: any head
whose number fits is good for an integer, integers are good for floats, binary data is good for
text that is UTF-8 and for a sequence of numbers, a record may be written as a map or as a sequence
of its fields, and unknown fields of a map are skipped. Bytes after the value are ignored.

## Main definitions

* `MessagePack.Reader.depthLimit` — how many containers may be nested.
* `Ty.ofToken` — the value that starts with a token.
* `Ty.read` — the value at the beginning of a byte string.

## Implementation notes

Recursion goes down the type as long as no container is entered. Entering one uses up a level of
nesting, so the reader for the contents is built first, by recursion on the number of levels left
(`Reader.insideAt`), and handed to the reader for the container as an argument; without levels
left there is none and every container is refused.
-/

set_option autoImplicit false

namespace LayeredCache

open MessagePack

namespace MessagePack

namespace Reader

/-- How many containers may be nested. -/
def depthLimit : Nat := 1023

/-- How the contents of a container are read. -/
structure Inside where
  /-- Reads a value of a type, given what `Ty.self` stands for. -/
  value : (outer ty : Ty) → Bytes → Option (Value × Bytes)
  /-- Skips a value of any type. -/
  skip : Bytes → Option Bytes

/-- Reads `n` values one after the other. -/
def times (read : Bytes → Option (Value × Bytes)) : (n : Nat) → Bytes → Option (List Value × Bytes)
  | 0, bs => some ([], bs)
  | n + 1, bs =>
    match read bs with
    | none => none
    | some (v, bs) =>
      match times read n bs with
      | none => none
      | some (vs, bs) => some (v :: vs, bs)

/-- Reads `n` entries, each a key and its value. -/
def entries (key value : Bytes → Option (Value × Bytes)) :
    (n : Nat) → Bytes → Option (List (Value × Value) × Bytes)
  | 0, bs => some ([], bs)
  | n + 1, bs =>
    match key bs with
    | none => none
    | some (k, bs) =>
      match value bs with
      | none => none
      | some (v, bs) =>
        match entries key value n bs with
        | none => none
        | some (es, bs) => some ((k, v) :: es, bs)

/-- Skips `n` values one after the other. -/
def skipTimes (skip : Bytes → Option Bytes) : (n : Nat) → Bytes → Option Bytes
  | 0, bs => some bs
  | n + 1, bs => (skip bs).bind (skipTimes skip n)

/-- Skips what belongs to a token that was just read. An extension counts as a container. -/
def skipAfter (inside : Option Inside) : Token → Bytes → Option Bytes
  | .array n _, bs => inside.bind fun i => skipTimes i.skip n bs
  | .map n, bs => inside.bind fun i => skipTimes i.skip (2 * n) bs
  | .extension _ _, bs => inside.map fun _ => bs
  | _, bs => some bs

/-! ## Scalars -/

/-- The text of a token that can be read as text. -/
def textOf? : Token → Option String
  | .text bytes => Utf8.text? bytes
  | .binary bytes => Utf8.text? bytes
  | _ => none

/-- The number of an integer token. -/
def integerOf? : Token → Option Int
  | .unsigned n => some n
  | .signed i => some i
  | _ => none

/-- The bits of a float token or of the float nearest to an integer token. -/
def floatOf? (format : Binary.Format) : Token → Option Nat
  | .unsigned n => some (Binary.ofInt format n)
  | .signed i => some (Binary.ofInt format i)
  | .float32 bits =>
    some (if format == Binary.single then bits.toNat
      else Binary.convert Binary.single format bits.toNat)
  | .float64 bits =>
    some (if format == Binary.double then bits.toNat
      else Binary.convert Binary.double format bits.toNat)
  | _ => none

/-- The value that describes itself by a token alone. Floats that are not finite have no such
value and become nil. -/
def dynamicOf? : Token → Option Value
  | .nil => some .unit
  | .bool b => some (.bool b)
  | .unsigned n => some (.int n)
  | .signed i => some (.int i)
  | .text bytes => (Utf8.text? bytes).map .text
  | token =>
    (floatOf? Binary.double token).map fun bits =>
      if isFinite64 (UInt64.ofNat bits) then .float64 (UInt64.ofNat bits) else .unit

/-- The byte that an integer token between 0 and 255 stands for. -/
def octetOf? (token : Token) : Option UInt8 :=
  match integerOf? token with
  | some i => if 0 ≤ i && i < 256 then some (UInt8.ofNat i.toNat) else none
  | none => none

/-- Reads `n` bytes, each written as a number. -/
def octetTimes : (n : Nat) → Bytes → Option (Bytes × Bytes)
  | 0, bs => some ([], bs)
  | n + 1, bs =>
    match Token.read bs with
    | none => none
    | some (token, bs) =>
      match octetOf? token, octetTimes n bs with
      | some b, some (octets, bs) => some (b :: octets, bs)
      | _, _ => none

/-- Reads the entries of an object that describes itself. Its first key has to be written as text;
the others may be binary data. -/
def dynamicEntries (inside : Inside) (name : String) :
    (n : Nat) → Bytes → Option (List (Value × Value) × Bytes)
  | 0, bs => some ([], bs)
  | n + 1, bs =>
    match Token.read bs with
    | some (.text _, _) =>
      entries (inside.value .self Ty.text) (inside.value .self (.scalar (.dynamic name))) (n + 1) bs
    | _ => none

/-- Reads the value of a scalar type that starts with a token. -/
def scalarOf? (inside : Option Inside) : Scalar → Token → Bytes → Option (Value × Bytes)
  | .unit, .nil, bs => some (.unit, bs)
  | .bool, .bool b, bs => some (.bool b, bs)
  | .int k, token, bs =>
    (integerOf? token).bind fun i => if k.contains i then some (.int i, bs) else none
  | .float32, token, bs =>
    (floatOf? Binary.single token).map fun n => (.float32 (UInt32.ofNat n), bs)
  | .float64, token, bs =>
    (floatOf? Binary.double token).map fun n => (.float64 (UInt64.ofNat n), bs)
  | .char, .text bytes, bs =>
    match (Utf8.text? bytes).map String.toList with
    | some [c] => some (.char c, bs)
    | _ => none
  | .text, token, bs => (textOf? token).map fun s => (.text s, bs)
  | .octets, .binary bytes, bs => some (.octets bytes, bs)
  | .octets, .array n _, bs =>
    inside.bind fun _ => (octetTimes n bs).map fun (bytes, bs) => (.octets bytes, bs)
  | .buffer, .binary bytes, bs => some (.buffer bytes, bs)
  | .buffer, .text bytes, bs => some (.buffer bytes, bs)
  | .buffer, .array n _, bs =>
    inside.bind fun _ => (octetTimes n bs).map fun (bytes, bs) => (.buffer bytes, bs)
  | .token _, .nil, bs => some (.token, bs)
  | .token _, .array 0 true, bs => some (.token, bs)
  | .dynamic name, .array n _, bs =>
    inside.bind fun i =>
      (times (i.value .self (.scalar (.dynamic name))) n bs).map fun (vs, bs) => (.list vs, bs)
  | .dynamic name, .map n, bs =>
    inside.bind fun i =>
      (dynamicEntries i name n bs).map fun (es, bs) => (Value.mapOf es, bs)
  | .dynamic _, token, bs => (dynamicOf? token).map fun v => (v, bs)
  | .sealed _ reason, .nil, bs => some (.sealed reason, bs)
  | .sealed _ reason, .array 0 true, bs => some (.sealed reason, bs)
  | _, _, _ => none

/-- The value at a scalar type of a single byte of binary data. -/
def ofOctet? (b : UInt8) : Ty → Option Value
  | .scalar s => (scalarOf? none s (.unsigned b.toNat) []).map Prod.fst
  | _ => none

/-- The values at several types of the first bytes of binary data, one byte for each; the bytes
after them do not matter. -/
def ofOctets? : List Ty → Bytes → Option (List Value)
  | [], _ => some []
  | _ :: _, [] => none
  | t :: ts, b :: bs =>
    match ofOctet? b t, ofOctets? ts bs with
    | some v, some vs => some (v :: vs)
    | _, _ => none

/-! ## Records -/

/-- What the key of an entry says in a record or a choice: a name, or a position in order. -/
inductive Key where
  | name (bytes : Bytes)
  | position (n : Nat)
  deriving DecidableEq, Repr

/-- The key that a token stands for. -/
def keyOf? : Token → Option Key
  | .text bytes => some (.name bytes)
  | .binary bytes => some (.name bytes)
  | .unsigned n => some (.position n)
  | _ => none

/-- Whether a key means the given name at the given position. -/
def Key.means (key : Key) (name : String) (position : Nat) : Bool :=
  match key with
  | .name bytes => bytes == Utf8.encode name
  | .position n => n == position

/-- The field that a key means, looking from the given position on. -/
def field? (key : Key) : (position : Nat) → List (String × Ty) → Option (String × Ty)
  | _, [] => none
  | i, (n, t) :: fs => if key.means n i then some (n, t) else field? key (i + 1) fs

/-- Reads `n` entries of a record into the fields found so far. A field may come only once; an
entry that no field asks for is skipped. -/
def recordEntries (inside : Inside) (outer : Ty) (fields : List (String × Ty)) :
    (n : Nat) → (found : List (String × Value)) → Bytes → Option (List (String × Value) × Bytes)
  | 0, found, bs => some (found, bs)
  | n + 1, found, bs =>
    match Token.read bs with
    | none => none
    | some (token, bs) =>
      match keyOf? token with
      | none => none
      | some key =>
        match field? key 0 fields with
        | none => (inside.skip bs).bind (recordEntries inside outer fields n found)
        | some (name, ty) =>
          if (found.lookup name).isSome then none
          else
            match inside.value outer ty bs with
            | none => none
            | some (v, bs) => recordEntries inside outer fields n ((name, v) :: found) bs

/-- The fields of a record in order, taken from those found. An optional field may be missing. -/
def assemble (found : List (String × Value)) :
    List (String × Ty) → Option (List (String × Value))
  | [] => some []
  | (n, t) :: fs =>
    let value :=
      match found.lookup n, t with
      | some v, _ => some v
      | none, .option _ => some .absent
      | none, _ => none
    match value, assemble found fs with
    | some v, some vs => some ((n, v) :: vs)
    | _, _ => none

/-- Reads the fields of a record in order, without their names. -/
def fieldsInOrder (inside : Inside) (outer : Ty) :
    List (String × Ty) → Bytes → Option (List (String × Value) × Bytes)
  | [], bs => some ([], bs)
  | (n, t) :: fs, bs =>
    match inside.value outer t bs with
    | none => none
    | some (v, bs) =>
      match fieldsInOrder inside outer fs bs with
      | none => none
      | some (vs, bs) => some ((n, v) :: vs, bs)

/-- Reads the record that starts with a token. -/
def recordOf? (inside : Option Inside) (outer : Ty) (fields : List (String × Ty)) :
    Token → Bytes → Option (Value × Bytes)
  | .map n, bs =>
    inside.bind fun i =>
      match recordEntries i outer fields n [] bs with
      | none => none
      | some (found, bs) => (assemble found fields).map fun vs => (.record vs, bs)
  | .array n _, bs =>
    inside.bind fun i =>
      if n = fields.length then
        (fieldsInOrder i outer fields bs).map fun (vs, bs) => (.record vs, bs)
      else none
  | .binary bytes, bs =>
    (ofOctets? (fields.map Prod.snd) bytes).map fun vs =>
      (.record ((fields.map Prod.fst).zip vs), bs)
  | _, _ => none

/-- Reads one value of each of several types, one after the other. -/
def eachOf (inside : Inside) (outer : Ty) : List Ty → Bytes → Option (List Value × Bytes)
  | [], bs => some ([], bs)
  | t :: ts, bs =>
    match inside.value outer t bs with
    | none => none
    | some (v, bs) =>
      match eachOf inside outer ts bs with
      | none => none
      | some (vs, bs) => some (v :: vs, bs)

/-- The case that a key names alone, which has to be one without a payload. -/
def bareCase? (key : Key) : (position : Nat) → List (String × Option Ty) → Option Value
  | _, [] => none
  | i, (n, payload) :: cs =>
    if key.means n i then
      match payload with
      | none => some (.choice n none)
      | some _ => none
    else bareCase? key (i + 1) cs

end Reader

end MessagePack

open MessagePack.Reader

/-! ## Values of all types -/

mutual

/-- Reads the value of a type that starts with a token. `outer` is what `Ty.self` stands for, and
`inside` reads the contents of containers, if another one may be entered. -/
def Ty.ofToken (outer : Ty) (inside : Option Inside) :
    Ty → Token → Bytes → Option (Value × Bytes)
  | .scalar s, token, bs => scalarOf? inside s token bs
  | .option t, token, bs =>
    match token with
    | .nil => some (.absent, bs)
    | token => (Ty.ofToken outer inside t token bs).map fun (v, bs) => (.present v, bs)
  | .list t, token, bs =>
    match token with
    | .array n _ =>
      inside.bind fun i => (times (i.value outer t) n bs).map fun (vs, bs) => (.list vs, bs)
    | .binary bytes => (bytes.mapM fun b => ofOctet? b t).map fun vs => (.list vs, bs)
    | _ => none
  | .array length t, token, bs =>
    match token with
    | .array n _ =>
      if n = length then
        inside.bind fun i => (times (i.value outer t) n bs).map fun (vs, bs) => (.list vs, bs)
      else none
    | .binary bytes => (ofOctets? (List.replicate length t) bytes).map fun vs => (.list vs, bs)
    | _ => none
  | .tuple ts, token, bs =>
    match token with
    | .array n _ =>
      if n = ts.length then
        inside.bind fun i => (eachOf i outer ts bs).map fun (vs, bs) => (.list vs, bs)
      else none
    | .binary bytes => (ofOctets? ts bytes).map fun vs => (.list vs, bs)
    | _ => none
  | .map k v, token, bs =>
    match token with
    | .map n =>
      inside.bind fun i =>
        (entries (i.value outer k) (i.value outer v) n bs).map
          fun (es, bs) => (Value.mapOf es, bs)
    | _ => none
  | .record name fields, token, bs => recordOf? inside (.record name fields) fields token bs
  | .self, token, bs =>
    match outer with
    | .record name fields => recordOf? inside (.record name fields) fields token bs
    | _ => none
  | .choice _ cases, token, bs =>
    match token with
    | .map 1 =>
      match Token.read bs with
      | none => none
      | some (token, bs) =>
        match keyOf? token with
        | none => none
        | some key => Ty.ofCase outer inside key 0 cases bs
    | token =>
      match keyOf? token with
      | none => none
      | some key => (bareCase? key 0 cases).map fun v => (v, bs)

/-- Reads the payload of the case that a key means, looking from the given position on. A case
without a payload is followed by nil. -/
def Ty.ofCase (outer : Ty) (inside : Option Inside) (key : Key) :
    (position : Nat) → List (String × Option Ty) → Bytes → Option (Value × Bytes)
  | _, [], _ => none
  | i, (name, none) :: cases, bs =>
    if key.means name i then
      match Token.read bs with
      | some (.nil, bs) => some (.choice name none, bs)
      | _ => none
    else Ty.ofCase outer inside key (i + 1) cases bs
  | i, (name, some t) :: cases, bs =>
    if key.means name i then
      match Token.read bs with
      | none => none
      | some (token, bs) =>
        (Ty.ofToken outer inside t token bs).map fun (v, bs) => (.choice name (some v), bs)
    else Ty.ofCase outer inside key (i + 1) cases bs

end

namespace MessagePack.Reader

/-- Reads a value given how the contents of containers are read. -/
def valueWith (inside : Option Inside) (outer ty : Ty) (bs : Bytes) : Option (Value × Bytes) :=
  match Token.read bs with
  | none => none
  | some (token, bs) => Ty.ofToken outer inside ty token bs

/-- Skips a value given how the contents of containers are read. -/
def skipWith (inside : Option Inside) (bs : Bytes) : Option Bytes :=
  match Token.read bs with
  | none => none
  | some (token, bs) => skipAfter inside token bs

/-- How contents are read when so many containers may still be entered. -/
def insideAt : Nat → Option Inside
  | 0 => none
  | levels + 1 =>
    some ⟨fun outer ty bs => valueWith (insideAt levels) outer ty bs,
      fun bs => skipWith (insideAt levels) bs⟩

end MessagePack.Reader

/-- The value of a type at the beginning of a byte string, and the bytes after it. -/
def Ty.readFrom (ty : Ty) (bs : Bytes) : Option (Value × Bytes) :=
  valueWith (insideAt depthLimit) ty ty bs

/-- The value of a type at the beginning of a byte string, whatever follows it. -/
def Ty.read (ty : Ty) (bs : Bytes) : Option Value :=
  (ty.readFrom bs).map Prod.fst

end LayeredCache
