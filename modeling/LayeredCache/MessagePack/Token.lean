import LayeredCache.Bytes

/-!
# MessagePack tokens

A MessagePack value starts with a head byte that says what it is and how long. A token is what a
head and the bytes that belong to it say: a number, a text, or the announcement that so many items
or entries follow. Writing picks the shortest head that fits; reading accepts every head.

## Main definitions

* `MessagePack.Token` — tokens.
* `MessagePack.Token.read` — the first token of a byte string and the bytes after it.
* `MessagePack.writeInt`, `writeText`, `writeBinary`, `arrayHead`, `mapHead` — the written forms.
-/

set_option autoImplicit false

namespace LayeredCache.MessagePack

/-- What the start of a MessagePack value says. -/
inductive Token where
  | nil
  | bool (b : Bool)
  /-- An integer under a head for numbers that are not negative. -/
  | unsigned (n : Nat)
  /-- An integer under a head for signed numbers. -/
  | signed (i : Int)
  | float32 (bits : UInt32)
  | float64 (bits : UInt64)
  /-- The bytes of a text, valid or not. -/
  | text (bytes : Bytes)
  | binary (bytes : Bytes)
  /-- So many items follow; `short` if the head byte itself holds their number. -/
  | array (length : Nat) (short : Bool)
  /-- So many keys follow, each with its value. -/
  | map (length : Nat)
  /-- A value of an application-defined kind. -/
  | extension (kind : UInt8) (bytes : Bytes)
  deriving DecidableEq, Repr

/-! ## Reading -/

/-- A number of `width` bytes and the bytes after it. -/
def number? (width : Nat) (bs : Bytes) : Option (Nat × Bytes) :=
  (Bytes.split? width bs).map fun (digits, rest) => (Bytes.ofBigEndian digits, rest)

/-- A signed number of `width` bytes, negative numbers in two's complement. -/
def signed? (width : Nat) (bs : Bytes) : Option (Int × Bytes) :=
  (number? width bs).map fun (n, rest) =>
    let half := Nat.pow 2 (8 * width - 1)
    (if n < half then (n : Int) else (n : Int) - (2 * half : Nat), rest)

/-- A byte string whose length is written in `width` bytes before it. -/
def counted? (width : Nat) (bs : Bytes) : Option (Bytes × Bytes) :=
  match number? width bs with
  | none => none
  | some (n, rest) => Bytes.split? n rest

/-- An extension with `n` bytes of content. -/
def extension? (n : Nat) : Bytes → Option (Token × Bytes)
  | [] => none
  | kind :: rest => (Bytes.split? n rest).map fun (body, rest) => (.extension kind body, rest)

/-- An extension whose length is written in `width` bytes. -/
def countedExtension? (width : Nat) (bs : Bytes) : Option (Token × Bytes) :=
  match number? width bs with
  | none => none
  | some (n, rest) => extension? n rest

/-- The token that a head byte from c0 to df starts. -/
def Token.readLong (head : UInt8) (rest : Bytes) : Option (Token × Bytes) :=
  match head.toNat with
  | 0xc0 => some (.nil, rest)
  | 0xc2 => some (.bool false, rest)
  | 0xc3 => some (.bool true, rest)
  | 0xc4 => (counted? 1 rest).map fun (b, r) => (.binary b, r)
  | 0xc5 => (counted? 2 rest).map fun (b, r) => (.binary b, r)
  | 0xc6 => (counted? 4 rest).map fun (b, r) => (.binary b, r)
  | 0xc7 => countedExtension? 1 rest
  | 0xc8 => countedExtension? 2 rest
  | 0xc9 => countedExtension? 4 rest
  | 0xca => (number? 4 rest).map fun (n, r) => (.float32 (UInt32.ofNat n), r)
  | 0xcb => (number? 8 rest).map fun (n, r) => (.float64 (UInt64.ofNat n), r)
  | 0xcc => (number? 1 rest).map fun (n, r) => (.unsigned n, r)
  | 0xcd => (number? 2 rest).map fun (n, r) => (.unsigned n, r)
  | 0xce => (number? 4 rest).map fun (n, r) => (.unsigned n, r)
  | 0xcf => (number? 8 rest).map fun (n, r) => (.unsigned n, r)
  | 0xd0 => (signed? 1 rest).map fun (i, r) => (.signed i, r)
  | 0xd1 => (signed? 2 rest).map fun (i, r) => (.signed i, r)
  | 0xd2 => (signed? 4 rest).map fun (i, r) => (.signed i, r)
  | 0xd3 => (signed? 8 rest).map fun (i, r) => (.signed i, r)
  | 0xd4 => extension? 1 rest
  | 0xd5 => extension? 2 rest
  | 0xd6 => extension? 4 rest
  | 0xd7 => extension? 8 rest
  | 0xd8 => extension? 16 rest
  | 0xd9 => (counted? 1 rest).map fun (b, r) => (.text b, r)
  | 0xda => (counted? 2 rest).map fun (b, r) => (.text b, r)
  | 0xdb => (counted? 4 rest).map fun (b, r) => (.text b, r)
  | 0xdc => (number? 2 rest).map fun (n, r) => (.array n false, r)
  | 0xdd => (number? 4 rest).map fun (n, r) => (.array n false, r)
  | 0xde => (number? 2 rest).map fun (n, r) => (.map n, r)
  | 0xdf => (number? 4 rest).map fun (n, r) => (.map n, r)
  | _ => none

/-- The first token of a byte string and the bytes after it. There is none when the string is
empty, ends too early or starts with the one head that means nothing. -/
def Token.read : Bytes → Option (Token × Bytes)
  | [] => none
  | head :: rest =>
    let n := head.toNat
    if n < 0x80 then some (.unsigned n, rest)
    else if n < 0x90 then some (.map (n - 0x80), rest)
    else if n < 0xa0 then some (.array (n - 0x90) true, rest)
    else if n < 0xc0 then (Bytes.split? (n - 0xa0) rest).map fun (b, r) => (.text b, r)
    else if n < 0xe0 then Token.readLong head rest
    else some (.signed ((n : Int) - 256), rest)

/-! ## Writing -/

/-- A number that is not negative, under the shortest head. -/
def writeUnsigned (n : Nat) : Bytes :=
  if n < 0x80 then [UInt8.ofNat n]
  else if n < 0x100 then 0xcc :: Bytes.toBigEndian 1 n
  else if n < 0x10000 then 0xcd :: Bytes.toBigEndian 2 n
  else if n < 0x100000000 then 0xce :: Bytes.toBigEndian 4 n
  else 0xcf :: Bytes.toBigEndian 8 n

/-- The low `width` bytes of an integer in two's complement. -/
def twosComplement (width : Nat) (i : Int) : Bytes :=
  Bytes.toBigEndian width (i % (Nat.pow 2 (8 * width) : Nat)).toNat

/-- An integer under the shortest head: one that is not negative counts as unsigned. -/
def writeInt (i : Int) : Bytes :=
  if 0 ≤ i then writeUnsigned i.toNat
  else if -32 ≤ i then twosComplement 1 i
  else if -0x80 ≤ i then 0xd0 :: twosComplement 1 i
  else if -0x8000 ≤ i then 0xd1 :: twosComplement 2 i
  else if -0x80000000 ≤ i then 0xd2 :: twosComplement 4 i
  else 0xd3 :: twosComplement 8 i

/-- The head of a text of `n` bytes. -/
def textHead (n : Nat) : Bytes :=
  if n < 32 then [UInt8.ofNat (0xa0 + n)]
  else if n < 0x100 then 0xd9 :: Bytes.toBigEndian 1 n
  else if n < 0x10000 then 0xda :: Bytes.toBigEndian 2 n
  else 0xdb :: Bytes.toBigEndian 4 n

/-- The head of a binary string of `n` bytes. -/
def binaryHead (n : Nat) : Bytes :=
  if n < 0x100 then 0xc4 :: Bytes.toBigEndian 1 n
  else if n < 0x10000 then 0xc5 :: Bytes.toBigEndian 2 n
  else 0xc6 :: Bytes.toBigEndian 4 n

/-- The head of a sequence of `n` items. -/
def arrayHead (n : Nat) : Bytes :=
  if n < 16 then [UInt8.ofNat (0x90 + n)]
  else if n < 0x10000 then 0xdc :: Bytes.toBigEndian 2 n
  else 0xdd :: Bytes.toBigEndian 4 n

/-- The head of a map of `n` entries. -/
def mapHead (n : Nat) : Bytes :=
  if n < 16 then [UInt8.ofNat (0x80 + n)]
  else if n < 0x10000 then 0xde :: Bytes.toBigEndian 2 n
  else 0xdf :: Bytes.toBigEndian 4 n

/-- The written form of nil. -/
def nil : Bytes := [0xc0]

end LayeredCache.MessagePack
