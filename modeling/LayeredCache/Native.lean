import LayeredCache.Failure

/-!
# Native values

The near tier can hold a value itself instead of its stored form. The common primitive types share
a few kinds, so that a value can be read back at a close relative of its type: text as bytes,
bytes as text when they are text, an integer at the other width when it fits. Every other value is
boxed together with its type and is given back at exactly that type.

## Main definitions

* `Native` — native values; `Native.of` captures a typed value.
* `Native.kind` — the name of the kind that is held.
* `Native.extract` — reads a native value back at a type.
-/

set_option autoImplicit false

namespace LayeredCache

/-- A value held as it is. -/
inductive Native where
  | text (s : String)
  | bytes (bs : Bytes)
  | flag (b : Bool)
  | int (i : Int)
  | float (bits : UInt64)
  /-- A value of any other type, with its type. -/
  | boxed (type : Ty) (value : Value)
  deriving Repr

namespace Native

/-- Captures a value of type `ty`, as a primitive when there is a kind for it. -/
def of (ty : Ty) (v : Value) : Native :=
  match ty, v with
  | .scalar .text, .text s => .text s
  | .scalar .literal, .text s => .text s
  | .scalar .buffer, .buffer bs => .bytes bs
  | .scalar .octets, .octets bs => .bytes bs
  | .scalar .bool, .bool b => .flag b
  | .scalar (.int k), .int i =>
    if k = IntKind.int64 ∨ k = IntKind.int32 then .int i else .boxed ty v
  | .scalar .float64, .float64 bits => .float bits
  | _, _ => .boxed ty v

/-- The name of the kind that is held. -/
def kind : Native → String
  | .text _ => "string"
  | .bytes _ => "bytes"
  | .flag _ => "bool"
  | .int _ => "int"
  | .float _ => "float"
  | .boxed _ _ => "boxed value"

/-- The value at type `ty`, when the kind that is held can be assigned to it. -/
def assign? (n : Native) (ty : Ty) : Option Value :=
  match n, ty with
  | .text s, .scalar .text => some (.text s)
  | .text s, .scalar .octets => some (.octets (Utf8.encode s))
  | .text s, .scalar .buffer => some (.buffer (Utf8.encode s))
  | .bytes bs, .scalar .buffer => some (.buffer bs)
  | .bytes bs, .scalar .octets => some (.octets bs)
  | .bytes bs, .scalar .text => (Utf8.text? bs).map .text
  | .flag b, .scalar .bool => some (.bool b)
  | .int i, .scalar (.int k) =>
    if (k = IntKind.int64 ∨ k = IntKind.int32) ∧ k.contains i then some (.int i) else none
  | .float bits, .scalar .float64 => some (.float64 bits)
  | .boxed held v, ty => if held.same ty then some v else none
  | _, _ => none

/-- Reads the value back at type `ty`. -/
def extract (n : Native) (ty : Ty) : Except Failure Value :=
  match n.assign? ty with
  | some v => .ok v
  | none => .error (.mismatch ty.name n.kind)

end Native

/-! ## What a tier in the process holds -/

/-- An entry's content: its stored form or the value itself. -/
inductive Content where
  | stored (data : Bytes)
  | native (value : Native)
  deriving Repr

/-- The value of type `ty` that a content stands for; nothing when it is stored as nothing. -/
def Content.read (ty : Ty) : Content → Except Failure (Option Value)
  | .stored data =>
    match Envelope.decode ty data with
    | .ok v => .ok v
    | .error f => .error (.envelope f)
  | .native n =>
    match n.extract ty with
    | .ok v => .ok (some v)
    | .error f => .error f

end LayeredCache
