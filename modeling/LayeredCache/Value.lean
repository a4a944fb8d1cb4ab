import LayeredCache.Bytes

/-!
# Typed values

The cache stores values of many types and hands each back at the type its reader names. A type is
described by a term of `Ty`, and a value of any type by a term of `Value`; the two are related by
`Ty.admits`.

## Main definitions

* `IntKind` — the width and sign of an integer type.
* `Scalar`, `Ty` — descriptions of types; named records and choices carry their names.
* `Ty.name` — the name by which a message refers to a type.
* `Value` — values; `Value.refusal?` says whether a value holds a part that cannot be written.
* `Ty.default` — the value that a destination holds before anything is read into it.
* `Ty.admits` — whether a value belongs to a type.

## Implementation notes

Floats are kept as their IEEE bits, so that a value that went through the cache can be compared
exactly. A record type may refer to itself by `Ty.self`, which stands for the nearest enclosing
record. `Value` does not repeat what its type says: an `int` carries no width and a `list` serves
sequences, arrays and tuples.
-/

set_option autoImplicit false

namespace LayeredCache

/-! ## Types -/

/-- The number of bits of an integer type. -/
inductive Width where
  | w8 | w16 | w32 | w64
  deriving DecidableEq, Repr

/-- The number of bits that a width stands for. -/
def Width.bits : Width → Nat
  | .w8 => 8
  | .w16 => 16
  | .w32 => 32
  | .w64 => 64

/-- An integer type: signed or not, of some width. -/
structure IntKind where
  signed : Bool
  width : Width
  deriving DecidableEq, Repr

namespace IntKind

/-- The least number of the type. -/
def least (k : IntKind) : Int := if k.signed then -(Nat.pow 2 (k.width.bits - 1) : Nat) else 0

/-- The greatest number of the type. -/
def greatest (k : IntKind) : Int :=
  if k.signed then (Nat.pow 2 (k.width.bits - 1) : Nat) - 1 else (Nat.pow 2 k.width.bits : Nat) - 1

/-- Whether a number belongs to the type. -/
def contains (k : IntKind) (i : Int) : Bool := k.least ≤ i && i ≤ k.greatest

/-- The type's name: its sign letter and its width. -/
def name (k : IntKind) : String := (if k.signed then "i" else "u") ++ toString k.width.bits

/-- The signed 32-bit integers. -/
def int32 : IntKind := ⟨true, .w32⟩

/-- The signed 64-bit integers. -/
def int64 : IntKind := ⟨true, .w64⟩

end IntKind

/-- Types without parts. -/
inductive Scalar where
  /-- The type with a single value, which is stored as nothing. -/
  | unit
  | bool
  | int (kind : IntKind)
  | float32
  | float64
  | char
  | text
  /-- Text that lives as long as the program; it can be stored but not read back. -/
  | literal
  /-- An owned byte string. -/
  | octets
  /-- A shared byte string. -/
  | buffer
  /-- A named record without fields. -/
  | token (name : String)
  /-- Any value that describes itself: nil, booleans, numbers, text, sequences and objects. -/
  | dynamic (name : String)
  /-- A type whose values refuse to be written, for the given reason. -/
  | sealed (name reason : String)
  deriving DecidableEq, Repr

/-- Descriptions of types. -/
inductive Ty where
  | scalar (s : Scalar)
  | option (item : Ty)
  /-- Sequences of any length. -/
  | list (item : Ty)
  /-- Sequences of a fixed length. -/
  | array (length : Nat) (item : Ty)
  | tuple (items : List Ty)
  /-- Finite maps, ordered by key. -/
  | map (key value : Ty)
  | record (name : String) (fields : List (String × Ty))
  /-- The nearest enclosing record. -/
  | self
  /-- One of several named cases; a case without a payload has no type beside its name. -/
  | choice (name : String) (cases : List (String × Option Ty))
  deriving Repr

namespace Ty

/-- The type with a single value. -/
abbrev unit : Ty := .scalar .unit

/-- The truth values. -/
abbrev bool : Ty := .scalar .bool

/-- An integer type. -/
abbrev int (k : IntKind) : Ty := .scalar (.int k)

/-- Text. -/
abbrev text : Ty := .scalar .text

/-- Owned byte strings. -/
abbrev octets : Ty := .scalar .octets

/-- Shared byte strings. -/
abbrev buffer : Ty := .scalar .buffer

/-- Sixty-four-bit floats. -/
abbrev float64 : Ty := .scalar .float64

end Ty

/-- The name by which a message refers to a scalar type. -/
def Scalar.name : Scalar → String
  | .unit => "()"
  | .bool => "bool"
  | .int k => k.name
  | .float32 => "f32"
  | .float64 => "f64"
  | .char => "char"
  | .text => "alloc::string::String"
  | .literal => "&str"
  | .octets => "alloc::vec::Vec<u8>"
  | .buffer => "bytes::bytes::Bytes"
  | .token n => n
  | .dynamic n => n
  | .sealed n _ => n

mutual

/-- The name by which a message refers to a type. -/
def Ty.name : Ty → String
  | .scalar s => s.name
  | .option t => "core::option::Option<" ++ t.name ++ ">"
  | .list t => "alloc::vec::Vec<" ++ t.name ++ ">"
  | .array n t => "[" ++ t.name ++ "; " ++ toString n ++ "]"
  | .tuple ts => "(" ++ Ty.names ts ++ ")"
  | .map k v => "alloc::collections::btree::map::BTreeMap<" ++ k.name ++ ", " ++ v.name ++ ">"
  | .record n _ => n
  | .self => "Self"
  | .choice n _ => n

/-- The names of several types, separated by commas; a single one is followed by a comma. -/
def Ty.names : List Ty → String
  | [] => ""
  | [t] => t.name ++ ","
  | t :: ts => t.name ++ Ty.namesAfter ts

/-- The names of the types that follow another one. -/
def Ty.namesAfter : List Ty → String
  | [] => ""
  | t :: ts => ", " ++ t.name ++ Ty.namesAfter ts

end

/-! ## Equality of types -/

mutual

/-- Whether two descriptions are the same type. -/
def Ty.same : Ty → Ty → Bool
  | .scalar s, .scalar t => s == t
  | .option a, .option b => a.same b
  | .list a, .list b => a.same b
  | .array m a, .array n b => m == n && a.same b
  | .tuple as, .tuple bs => Ty.sameAll as bs
  | .map j a, .map k b => j.same k && a.same b
  | .record m as, .record n bs => m == n && Ty.sameFields as bs
  | .self, .self => true
  | .choice m as, .choice n bs => m == n && Ty.sameCases as bs
  | _, _ => false

/-- Whether two lists hold the same types in the same order. -/
def Ty.sameAll : List Ty → List Ty → Bool
  | [], [] => true
  | a :: as, b :: bs => a.same b && Ty.sameAll as bs
  | _, _ => false

/-- Whether two lists of fields agree in names and types. -/
def Ty.sameFields : List (String × Ty) → List (String × Ty) → Bool
  | [], [] => true
  | (m, a) :: as, (n, b) :: bs => m == n && a.same b && Ty.sameFields as bs
  | _, _ => false

/-- Whether two lists of cases agree in names and payloads. -/
def Ty.sameCases : List (String × Option Ty) → List (String × Option Ty) → Bool
  | [], [] => true
  | (m, none) :: as, (n, none) :: bs => m == n && Ty.sameCases as bs
  | (m, some a) :: as, (n, some b) :: bs => m == n && a.same b && Ty.sameCases as bs
  | _, _ => false

end

/-! ## Values -/

/-- Values of all types. -/
inductive Value where
  | unit
  | bool (b : Bool)
  | int (i : Int)
  | float32 (bits : UInt32)
  | float64 (bits : UInt64)
  | char (c : Char)
  | text (s : String)
  | octets (bs : Bytes)
  | buffer (bs : Bytes)
  | absent
  | present (v : Value)
  /-- The items of a sequence, an array or a tuple. -/
  | list (items : List Value)
  /-- The entries of a map, by ascending key. -/
  | map (entries : List (Value × Value))
  /-- The fields of a record, in the order of its type. -/
  | record (fields : List (String × Value))
  | token
  /-- A case of a choice with its payload, if it has one. -/
  | choice (case : String) (payload : Option Value)
  /-- A value that refuses to be written. -/
  | sealed (reason : String)
  deriving Repr, Inhabited

mutual

/-- Why a value cannot be written, if it holds a part that refuses. -/
def Value.refusal? : Value → Option String
  | .present v => v.refusal?
  | .list vs => Value.refusalAmong? vs
  | .map es => Value.refusalInEntries? es
  | .record fs => Value.refusalInFields? fs
  | .choice _ (some v) => v.refusal?
  | .sealed reason => some reason
  | _ => none

/-- The first refusal among several values. -/
def Value.refusalAmong? : List Value → Option String
  | [] => none
  | v :: vs => v.refusal? <|> Value.refusalAmong? vs

/-- The first refusal among the entries of a map. -/
def Value.refusalInEntries? : List (Value × Value) → Option String
  | [] => none
  | (k, v) :: es => k.refusal? <|> v.refusal? <|> Value.refusalInEntries? es

/-- The first refusal among the fields of a record. -/
def Value.refusalInFields? : List (String × Value) → Option String
  | [] => none
  | (_, v) :: fs => v.refusal? <|> Value.refusalInFields? fs

end

/-! ## Keys of maps -/

/-- The order of map keys: numbers by size, texts by code point. -/
def Value.keyBelow : Value → Value → Bool
  | .int i, .int j => i < j
  | .text s, .text t => s < t
  | _, _ => false

/-- Adds an entry to a map in key order; an entry under the same key is replaced. -/
def Value.insertEntry (k v : Value) : List (Value × Value) → List (Value × Value)
  | [] => [(k, v)]
  | (j, w) :: es =>
    if k.keyBelow j then (k, v) :: (j, w) :: es
    else if j.keyBelow k then (j, w) :: Value.insertEntry k v es
    else (k, v) :: es

/-- The map with the given entries, of which the last under each key counts. -/
def Value.mapOf (entries : List (Value × Value)) : Value :=
  .map (entries.foldl (fun es (k, v) => Value.insertEntry k v es) [])

/-! ## Initial values -/

/-- The value that a destination of a scalar type holds before it is written: nothing, zero or
empty. -/
def Scalar.default : Scalar → Value
  | .unit => .unit
  | .bool => .bool false
  | .int _ => .int 0
  | .float32 => .float32 0
  | .float64 => .float64 0
  | .char => .char (Char.ofNat 0)
  | .text => .text ""
  | .literal => .text ""
  | .octets => .octets []
  | .buffer => .buffer []
  | .token _ => .token
  | .dynamic _ => .unit
  | .sealed _ reason => .sealed reason

mutual

/-- The value that a destination holds before it is written. -/
def Ty.default : Ty → Value
  | .scalar s => s.default
  | .option _ => .absent
  | .list _ => .list []
  | .array n t => .list (List.replicate n t.default)
  | .tuple ts => .list (Ty.defaults ts)
  | .map _ _ => .map []
  | .record _ fs => .record (Ty.defaultFields fs)
  | .self => .absent
  | .choice _ cs => Ty.defaultCase cs

/-- The initial values of several types. -/
def Ty.defaults : List Ty → List Value
  | [] => []
  | t :: ts => t.default :: Ty.defaults ts

/-- The initial values of the fields of a record. -/
def Ty.defaultFields : List (String × Ty) → List (String × Value)
  | [] => []
  | (n, t) :: fs => (n, t.default) :: Ty.defaultFields fs

/-- The first case of a choice, with the initial value of its payload. -/
def Ty.defaultCase : List (String × Option Ty) → Value
  | [] => .unit
  | (n, none) :: _ => .choice n none
  | (n, some t) :: _ => .choice n (some t.default)

end

/-! ## Typing -/

/-- Whether the bits are those of a finite 64-bit float: the exponent is not all ones. -/
def isFinite64 (bits : UInt64) : Bool := (bits >>> 52) &&& 0x7ff != 0x7ff

/-- Whether entries stand in strictly ascending key order. -/
def Value.keysAscend : List (Value × Value) → Bool
  | [] => true
  | [_] => true
  | (j, _) :: (k, w) :: es => j.keyBelow k && Value.keysAscend ((k, w) :: es)

/-- The payload type of a named case: nothing when there is no such case. -/
def Ty.payload? (case : String) : List (String × Option Ty) → Option (Option Ty)
  | [] => none
  | (n, t) :: cs => if n == case then some t else Ty.payload? case cs

mutual

/-- Whether a value describes itself: it is built from nil, booleans, integers of at most 64 bits,
finite floats, texts, sequences and objects with ascending text keys. -/
def Value.isDynamic : Value → Bool
  | .unit => true
  | .bool _ => true
  | .int i => -0x8000000000000000 ≤ i && i < 0x10000000000000000
  | .float64 bits => isFinite64 bits
  | .text _ => true
  | .list vs => Value.areDynamic vs
  | .map es => Value.keysAscend es && Value.isDynamicObject es
  | _ => false

/-- Whether several values all describe themselves. -/
def Value.areDynamic : List Value → Bool
  | [] => true
  | v :: vs => v.isDynamic && Value.areDynamic vs

/-- Whether the entries of a map have text keys and values that describe themselves. -/
def Value.isDynamicObject : List (Value × Value) → Bool
  | [] => true
  | (.text _, v) :: es => v.isDynamic && Value.isDynamicObject es
  | _ :: _ => false

end

/-- Whether a value belongs to a scalar type. -/
def Scalar.admits : Scalar → Value → Bool
  | .unit, .unit => true
  | .bool, .bool _ => true
  | .int k, .int i => k.contains i
  | .float32, .float32 _ => true
  | .float64, .float64 _ => true
  | .char, .char _ => true
  | .text, .text _ => true
  | .literal, .text _ => true
  | .octets, .octets _ => true
  | .buffer, .buffer _ => true
  | .token _, .token => true
  | .dynamic _, v => v.isDynamic
  | .sealed _ r, .sealed s => r == s
  | _, _ => false

mutual

/-- Whether a value belongs to a type; `outer` is what `Ty.self` stands for. -/
def Ty.admits (outer : Ty) : Ty → Value → Bool
  | .scalar s, v => s.admits v
  | .option _, .absent => true
  | .option t, .present v => Ty.admits outer t v
  | .list t, .list vs => Ty.admitsEach outer t vs
  | .array n t, .list vs => vs.length == n && Ty.admitsEach outer t vs
  | .tuple ts, .list vs => Ty.admitsAll outer ts vs
  | .map k v, .map es => Value.keysAscend es && Ty.admitsEntries outer k v es
  | .record n fs, .record vs => Ty.admitsFields (.record n fs) fs vs
  | .self, .record vs =>
    match outer with
    | .record n fs => Ty.admitsFields (.record n fs) fs vs
    | _ => false
  | .choice _ cs, .choice case none =>
    match Ty.payload? case cs with
    | some none => true
    | _ => false
  | .choice _ cs, .choice case (some v) =>
    match Ty.payload? case cs with
    | some (some t) => Ty.admits outer t v
    | _ => false
  | _, _ => false
termination_by structural _ v => v

/-- Whether each of several values belongs to a type. -/
def Ty.admitsEach (outer t : Ty) : List Value → Bool
  | [] => true
  | v :: vs => Ty.admits outer t v && Ty.admitsEach outer t vs
termination_by structural vs => vs

/-- Whether values belong to types, one to each. -/
def Ty.admitsAll (outer : Ty) : List Ty → List Value → Bool
  | [], [] => true
  | t :: ts, v :: vs => Ty.admits outer t v && Ty.admitsAll outer ts vs
  | _, _ => false
termination_by structural _ vs => vs

/-- Whether the entries of a map belong to its key and value types. -/
def Ty.admitsEntries (outer key value : Ty) : List (Value × Value) → Bool
  | [] => true
  | (k, v) :: es =>
    Ty.admits outer key k && Ty.admits outer value v && Ty.admitsEntries outer key value es
termination_by structural es => es

/-- Whether fields have the names and belong to the types that a record asks for, in order. -/
def Ty.admitsFields (outer : Ty) : List (String × Ty) → List (String × Value) → Bool
  | [], [] => true
  | (m, t) :: ts, (n, v) :: vs => m == n && Ty.admits outer t v && Ty.admitsFields outer ts vs
  | _, _ => false
termination_by structural _ vs => vs

end

end LayeredCache
