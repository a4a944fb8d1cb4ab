import LayeredCache.Settings.Numeral
import LayeredCache.Text.Utf8

/-!
# Reading settings from JSON

Settings are read from JSON straight into a structure that starts with its defaults. A record is an
object with some of its fields, in any order, each at most once; or an array of its first fields in
order. Members that no field is named after are read and forgotten.

## Main definitions

* `Json.Field`, `Json.record` — records of settings by their fields.
* `Json.flag`, `Json.text`, `Json.whole` — truth values, texts and integers.
* `Json.skip` — reads a value and forgets it.
* `Json.file` — reads a whole file.

## Implementation notes

The first fault in reading order counts. A value of the wrong shape is unfit only when it is well
formed as far as it has to be looked at: a literal, a number or a text in full, an array or an
object at its opening bracket. The loops take fuel that a byte string's length bounds, since every
member and every item takes at least one byte. A value that is skipped may be nested to any depth:
the containers that are open form a stack.
-/

set_option autoImplicit false

namespace LayeredCache.Json

/-- A reader of values: the value and what follows it. -/
abbrev Reader (α : Type) := Bytes → Except Fault (α × Bytes)

/-! ## Tokens -/

/-- Whether a byte is blank. -/
def isBlank (b : UInt8) : Bool := b == 0x20 || b == 0x0a || b == 0x09 || b == 0x0d

/-- A byte string without the blanks that it starts with. -/
def skipBlanks (bs : Bytes) : Bytes := bs.dropWhile isBlank

/-- Reads the given bytes. -/
def expect : (wanted : Bytes) → Bytes → Except Fault Bytes
  | [], bs => .ok bs
  | _ :: _, [] => .error .cutShort
  | w :: ws, b :: bs => if w == b then expect ws bs else .error .malformed

/-- The rest of `null`. -/
def afterN : Bytes := [0x75, 0x6c, 0x6c]

/-- The rest of `true`. -/
def afterT : Bytes := [0x72, 0x75, 0x65]

/-- The rest of `false`. -/
def afterF : Bytes := [0x61, 0x6c, 0x73, 0x65]

/-- Reads the colon after a member's name. -/
def colon (bs : Bytes) : Except Fault Bytes :=
  match skipBlanks bs with
  | [] => .error .cutShort
  | b :: rest => if b == 0x3a then .ok rest else .error .malformed

/-! ## Texts -/

/-- The value of a hexadecimal digit. -/
def hexValue? (b : UInt8) : Option Nat :=
  if isDigit b then some (digitValue b)
  else if 0x61 ≤ b && b ≤ 0x66 then some (b.toNat - 0x57)
  else if 0x41 ≤ b && b ≤ 0x46 then some (b.toNat - 0x37)
  else none

/-- Reads the four digits of a numbered character. -/
def fourDigits : Bytes → Except Fault (Nat × Bytes)
  | a :: b :: c :: d :: rest =>
    match hexValue? a, hexValue? b, hexValue? c, hexValue? d with
    | some a, some b, some c, some d => .ok (((a * 16 + b) * 16 + c) * 16 + d, rest)
    | _, _, _, _ => .error .malformed
  | _ => .error .cutShort

/-- The byte that a short escape stands for. -/
def shortEscape? (b : UInt8) : Option UInt8 :=
  if b == 0x22 || b == 0x5c || b == 0x2f then some b
  else if b == 0x62 then some 0x08
  else if b == 0x66 then some 0x0c
  else if b == 0x6e then some 0x0a
  else if b == 0x72 then some 0x0d
  else if b == 0x74 then some 0x09
  else none

/-- The bytes of a code point. -/
def codePoint (n : Nat) : Bytes := Utf8.encode (String.singleton (Char.ofNat n))

/-- Reads the second half of a pair of numbered characters; `high` is the first half. -/
def secondHalf (high : Nat) : Bytes → Except Fault (Bytes × Bytes)
  | [] => .error .cutShort
  | [b] => .error (if b == 0x5c then .cutShort else .malformed)
  | b :: c :: rest =>
    if b != 0x5c || c != 0x75 then .error .malformed
    else
      match fourDigits rest with
      | .error f => .error f
      | .ok (low, rest) =>
        if low < 0xdc00 || 0xdfff < low then .error .malformed
        else .ok (codePoint (0x10000 + (high - 0xd800) * 0x400 + (low - 0xdc00)), rest)

/-- Reads a numbered character, or a pair of them for a code point beyond sixteen bits. -/
def numbered (bs : Bytes) : Except Fault (Bytes × Bytes) :=
  match fourDigits bs with
  | .error f => .error f
  | .ok (n, rest) =>
    if 0xdc00 ≤ n && n ≤ 0xdfff then .error .malformed
    else if 0xd800 ≤ n && n ≤ 0xdbff then secondHalf n rest
    else .ok (codePoint n, rest)

/-- Reads an escape after its backslash. -/
def escape : Bytes → Except Fault (Bytes × Bytes)
  | [] => .error .cutShort
  | b :: rest =>
    if b == 0x75 then numbered rest
    else
      match shortEscape? b with
      | some c => .ok ([c], rest)
      | none => .error .malformed

/-- Reads an escape after its backslash and forgets it; numbers need not pair up. -/
def skipEscape : Bytes → Except Fault (Bytes × Bytes)
  | [] => .error .cutShort
  | b :: rest =>
    if b == 0x75 then (fourDigits rest).map fun (_, rest) => ([], rest)
    else if (shortEscape? b).isSome then .ok ([], rest)
    else .error .malformed

/-- Reads the rest of a text after its opening quote; `done` holds what was read, the last byte
first. -/
def quoted (escape : Bytes → Except Fault (Bytes × Bytes)) :
    (fuel : Nat) → (done : Bytes) → Bytes → Except Fault (Bytes × Bytes)
  | 0, _, _ => .error .cutShort
  | _ + 1, _, [] => .error .cutShort
  | fuel + 1, done, b :: rest =>
    if b == 0x22 then .ok (done.reverse, rest)
    else if b == 0x5c then
      match escape rest with
      | .error f => .error f
      | .ok (bytes, rest) => quoted escape fuel (bytes.reverse ++ done) rest
    else if b < 0x20 then .error .malformed
    else quoted escape fuel (b :: done) rest

/-- How many bytes the rest of a text takes at most, with its closing quote; `taken` of them were
counted already. -/
def quotedLength (taken : Nat) : Bytes → Nat
  | [] => taken
  | [_] => taken + 1
  | b :: c :: rest =>
    if b == 0x22 then taken + 1
    else if b == 0x5c then quotedLength (taken + 2) rest
    else quotedLength (taken + 1) (c :: rest)

/-- Reads the rest of a text after its opening quote. -/
def string (bs : Bytes) : Except Fault (String × Bytes) :=
  (quoted escape (quotedLength 1 bs) [] bs).map fun (bytes, rest) =>
    ((Utf8.text? bytes).getD "", rest)

/-- Reads the rest of a text after its opening quote and forgets it. -/
def skipString (bs : Bytes) : Except Fault Bytes :=
  (quoted skipEscape (quotedLength 1 bs) [] bs).map (·.2)

/-! ## Values of the wrong shape -/

/-- A reader's fault, or `unfit` when it read something. -/
def unfitUnless {α : Type} : Except Fault α → Fault
  | .error f => f
  | .ok _ => .unfit

/-- Why a value that starts with `b` is refused where another shape is wanted. -/
def mismatch (b : UInt8) (rest : Bytes) : Fault :=
  if b == 0x6e then unfitUnless (expect afterN rest)
  else if b == 0x74 then unfitUnless (expect afterT rest)
  else if b == 0x66 then unfitUnless (expect afterF rest)
  else if b == 0x2d then unfitUnless (number true rest)
  else if isDigit b then unfitUnless (number false (b :: rest))
  else if b == 0x22 then unfitUnless (string rest)
  else if b == 0x5b || b == 0x7b then .unfit
  else .malformed

/-! ## Values that nobody asked for -/

/-- Reads the rest of a literal, a number or a text that starts with `b`, and forgets it. -/
def skipScalar (b : UInt8) (rest : Bytes) : Except Fault Bytes :=
  if b == 0x6e then expect afterN rest
  else if b == 0x74 then expect afterT rest
  else if b == 0x66 then expect afterF rest
  else if b == 0x2d then skipNumber rest
  else if isDigit b then skipNumber (b :: rest)
  else if b == 0x22 then skipString rest
  else .error .malformed

/-- A kind of container. -/
inductive Container where
  | array
  | object
  deriving DecidableEq, Repr

/-- The bracket at the end of a container. -/
def Container.closing : Container → UInt8
  | .array => 0x5d
  | .object => 0x7d

/-- Reads what stands before the value of an item or a member: a member's name and a colon. -/
def Container.label : Container → Bytes → Except Fault Bytes
  | .array, bs => .ok bs
  | .object, bs =>
    match skipBlanks bs with
    | [] => .error .cutShort
    | q :: rest => if q == 0x22 then (skipString rest).bind colon else .error .malformed

/-- What comes next in a value that is skipped. -/
inductive Awaited where
  | value
  /-- The first item or member of the innermost container, or its end. -/
  | first
  /-- The end of the innermost container, or a comma and another item or member. -/
  | more
  deriving DecidableEq, Repr

/-- Reads what is left of a value, inside the given containers with the innermost one first, and
forgets it. Two steps for each byte are enough. -/
def skip : (fuel : Nat) → Awaited → List Container → Bytes → Except Fault Bytes
  | 0, _, _, _ => .error .cutShort
  | fuel + 1, .value, enclosing, bs =>
    match skipBlanks bs with
    | [] => .error .cutShort
    | b :: rest =>
      if b == 0x5b then skip fuel .first (.array :: enclosing) rest
      else if b == 0x7b then skip fuel .first (.object :: enclosing) rest
      else
        match skipScalar b rest with
        | .error f => .error f
        | .ok rest => skip fuel .more enclosing rest
  | _ + 1, _, [], bs => .ok bs
  | fuel + 1, awaited, c :: enclosing, bs =>
    match skipBlanks bs with
    | [] => .error .cutShort
    | b :: rest =>
      if b == c.closing then skip fuel .more enclosing rest
      else if awaited == .more && b != 0x2c then .error .malformed
      else
        match c.label (if awaited == .more then rest else b :: rest) with
        | .error f => .error f
        | .ok rest => skip fuel .value (c :: enclosing) rest

/-! ## Single values -/

/-- Reads a truth value. -/
def flag (bs : Bytes) : Except Fault (Bool × Bytes) :=
  match skipBlanks bs with
  | [] => .error .cutShort
  | b :: rest =>
    if b == 0x74 then (expect afterT rest).map (true, ·)
    else if b == 0x66 then (expect afterF rest).map (false, ·)
    else .error (mismatch b rest)

/-- Reads a text. -/
def text (bs : Bytes) : Except Fault (String × Bytes) :=
  match skipBlanks bs with
  | [] => .error .cutShort
  | b :: rest => if b == 0x22 then string rest else .error (mismatch b rest)

/-- Reads an integer between two bounds. -/
def whole (least greatest : Int) (bs : Bytes) : Except Fault (Int × Bytes) :=
  match skipBlanks bs with
  | [] => .error .cutShort
  | b :: rest =>
    let found :=
      if b == 0x2d then number true rest
      else if isDigit b then number false (b :: rest)
      else .error (mismatch b rest)
    match found with
    | .error f => .error f
    | .ok (none, _) => .error .unfit
    | .ok (some i, rest) => if least ≤ i ∧ i ≤ greatest then .ok (i, rest) else .error .unfit

/-- Reads an unsigned 64-bit integer. -/
def count (bs : Bytes) : Except Fault (Nat × Bytes) :=
  (whole 0 0xffffffffffffffff bs).map fun (i, rest) => (i.toNat, rest)

/-! ## Records -/

/-- A field of a record `S`: its name, and how its value is read into the record. -/
structure Field (S : Type) where
  name : String
  /-- Reads the value into the record. -/
  read : S → Reader S

/-- A field whose value is read by a reader of its own. -/
def Field.of {S α : Type} (name : String) (read : Reader α) (set : α → S → S) : Field S :=
  ⟨name, fun s bs => (read bs).map fun (a, rest) => (set a s, rest)⟩

variable {S : Type}

/-- Reads the members of an object into a record, up to the closing brace. `seen` holds the names of
the fields that were read. Two steps for each byte are enough. -/
def members (fields : List (Field S)) :
    (fuel : Nat) → (first : Bool) → (seen : List String) → S → Reader S
  | 0, _, _, _, _ => .error .cutShort
  | fuel + 1, first, seen, s, bs =>
    match skipBlanks bs with
    | [] => .error .cutShort
    | b :: rest =>
      if b == 0x7d then .ok (s, rest)
      else if !first && b != 0x2c then .error .malformed
      else
        match skipBlanks (if first then b :: rest else rest) with
        | [] => .error .cutShort
        | q :: rest =>
          if q != 0x22 then .error .malformed
          else
            match string rest with
            | .error f => .error f
            | .ok (name, rest) =>
              match fields.find? (·.name == name) with
              | none =>
                match colon rest with
                | .error f => .error f
                | .ok rest =>
                  match skip fuel .value [] rest with
                  | .error f => .error f
                  | .ok rest => members fields fuel false seen s rest
              | some field =>
                if seen.contains name then .error .unfit
                else
                  match colon rest with
                  | .error f => .error f
                  | .ok rest =>
                    match field.read s rest with
                    | .error f => .error f
                    | .ok (s, rest) => members fields fuel false (name :: seen) s rest

/-- Reads the items of an array into the fields of a record, in order, up to the closing bracket;
there may be fewer items than fields. -/
def items : (fields : List (Field S)) → (first : Bool) → S → Reader S
  | [], _, s, bs =>
    match skipBlanks bs with
    | [] => .error .cutShort
    | b :: rest => if b == 0x5d then .ok (s, rest) else .error .malformed
  | field :: fields, first, s, bs =>
    match skipBlanks bs with
    | [] => .error .cutShort
    | b :: rest =>
      if b == 0x5d then .ok (s, rest)
      else if !first && b != 0x2c then .error .malformed
      else
        match skipBlanks (if first then b :: rest else rest) with
        | [] => .error .cutShort
        | c :: rest =>
          if !first && c == 0x5d then .error .malformed
          else
            match field.read s (c :: rest) with
            | .error f => .error f
            | .ok (s, rest) => items fields false s rest

/-- Reads a record whose fields keep the values they have in `s` when they are not given. -/
def record (fields : List (Field S)) (s : S) (bs : Bytes) : Except Fault (S × Bytes) :=
  match skipBlanks bs with
  | [] => .error .cutShort
  | b :: rest =>
    if b == 0x7b then members fields (2 * rest.length + 3) true [] s rest
    else if b == 0x5b then items fields true s rest
    else .error (mismatch b rest)

/-- A field that is a record itself. -/
def Field.nested {T : Type} (name : String) (fields : List (Field T)) (part : S → T)
    (set : T → S → S) : Field S :=
  ⟨name, fun s bs => (record fields (part s) bs).map fun (t, rest) => (set t s, rest)⟩

/-- Reads a file that holds a record and nothing else. -/
def file (fields : List (Field S)) (s : S) (bs : Bytes) : Except Fault S :=
  match record fields s bs with
  | .error f => .error f
  | .ok (s, rest) => if (skipBlanks rest).isEmpty then .ok s else .error .malformed

end LayeredCache.Json
