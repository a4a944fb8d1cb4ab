/-!
# Byte strings

Stored data, frames and messages are lists of bytes, so that a format is read by taking lists
apart and written by appending them. Fixed-width numbers appear in both byte orders: MessagePack
writes the most significant byte first, zstd frames the least significant one.

In text, bytes and numbers are written in hexadecimal and read in decimal: a natural number by at
least one digit, after a plus sign or none, and an integer with a minus sign as well. Leading zeros
are allowed there, and nothing else is.

## Main definitions

* `Bytes` — a byte string.
* `Bytes.ofBigEndian`, `Bytes.toBigEndian` — numbers with the most significant byte first.
* `Bytes.ofLittleEndian`, `Bytes.toLittleEndian` — numbers with the least significant byte first.
* `Bytes.split?` — the first `n` bytes and the rest, when there are that many.
* `Bytes.toHex` — a byte string as text.
* `Text.natural?`, `Text.integer?` — the number that a text stands for, if there is one.
-/

set_option autoImplicit false

namespace LayeredCache

/-- A byte string. -/
abbrev Bytes := List UInt8

namespace Bytes

/-- The number written by `bs`, least significant byte first. -/
def ofLittleEndian : Bytes → Nat
  | [] => 0
  | b :: bs => b.toNat + 256 * ofLittleEndian bs

/-- The `width` low bytes of `n`, least significant byte first. -/
def toLittleEndian : (width : Nat) → (n : Nat) → Bytes
  | 0, _ => []
  | width + 1, n => UInt8.ofNat n :: toLittleEndian width (n / 256)

/-- The number written by `bs`, most significant byte first. -/
def ofBigEndian (bs : Bytes) : Nat :=
  bs.foldl (fun n b => 256 * n + b.toNat) 0

/-- The `width` low bytes of `n`, most significant byte first. -/
def toBigEndian (width n : Nat) : Bytes :=
  (toLittleEndian width n).reverse

/-- The first `n` bytes and the rest, or nothing when fewer than `n` bytes are left. -/
def split? (n : Nat) (bs : Bytes) : Option (Bytes × Bytes) :=
  let first := bs.take n
  if first.length = n then some (first, bs.drop n) else none

/-! ## Hexadecimal text -/

/-- The lower-case hexadecimal digit of a number below sixteen. -/
def hexDigit (n : Nat) : Char :=
  if n < 10 then Char.ofNat (48 + n) else Char.ofNat (87 + n)

/-- A byte as two lower-case hexadecimal digits. -/
def hexByte (b : UInt8) : String :=
  String.ofList [hexDigit (b.toNat / 16), hexDigit (b.toNat % 16)]

/-- A number in lower-case hexadecimal, without leading zeros. -/
def hexNumber (n : Nat) : String :=
  String.ofList (Nat.toDigits 16 n)

/-- A byte string as hexadecimal text, two digits a byte. -/
def toHex (bs : Bytes) : String :=
  String.ofList (bs.flatMap fun b => [hexDigit (b.toNat / 16), hexDigit (b.toNat % 16)])

end Bytes

end LayeredCache

/-! ## Decimal text -/

namespace LayeredCache.Text

/-- The value of a decimal digit. -/
def digit? (c : Char) : Option Nat :=
  if '0' ≤ c ∧ c ≤ '9' then some (c.toNat - 48) else none

/-- The number that digits stand for; there has to be at least one. -/
def digits? : List Char → Option Nat
  | [] => none
  | cs => cs.foldlM (fun n c => (digit? c).map fun d => 10 * n + d) 0

/-- The natural number that a text stands for, if a word of the given number of bits holds it. -/
def natural? (width : Nat) (s : String) : Option Nat :=
  let n := match s.toList with
    | '+' :: cs => digits? cs
    | cs => digits? cs
  n.filter (· < Nat.pow 2 width)

/-- The integer that a text stands for, if a signed word of the given number of bits holds it. -/
def integer? (width : Nat) (s : String) : Option Int :=
  let half : Int := Nat.pow 2 (width - 1)
  let i : Option Int := match s.toList with
    | '+' :: cs => (digits? cs).map Int.ofNat
    | '-' :: cs => (digits? cs).map fun n => -n
    | cs => (digits? cs).map Int.ofNat
  i.filter fun i => -half ≤ i && i < half

end LayeredCache.Text
