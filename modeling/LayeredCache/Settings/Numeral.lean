import LayeredCache.Bytes
import LayeredCache.Number.Binary

/-!
# Numbers in settings files

A number in a settings file is an integer when it is written without fraction and exponent and fits
64 bits; every other number counts as a float. A float beyond the range of its format is refused
like a malformed one, so how large it is has to be computed even though no setting is a float.

## Main definitions

* `Json.Fault` — why a file is refused.
* `Json.number` — reads a number: its value when it is an integer.
* `Json.skipNumber` — reads a number that nobody asked for, whatever its size.
-/

set_option autoImplicit false

namespace LayeredCache.Json

/-- Why a file is refused. -/
inductive Fault where
  /-- It is not well formed. -/
  | malformed
  /-- It ends too early. -/
  | cutShort
  /-- A value has the wrong shape or is out of range, or a field is there twice. -/
  | unfit
  deriving DecidableEq, Repr

/-- Whether a byte is a decimal digit. -/
def isDigit (b : UInt8) : Bool := 0x30 ≤ b && b ≤ 0x39

/-- The value of a decimal digit. -/
def digitValue (b : UInt8) : Nat := b.toNat - 0x30

/-- The greatest significand that is kept exactly. -/
def significandLimit : Nat := 0xffffffffffffffff

/-- Appends digits to a significand as long as it stays below its limit; the result also counts the
digits that were left out. -/
def extend (significand : Nat) : Bytes → Nat × Nat
  | [] => (significand, 0)
  | d :: ds =>
    let longer := significand * 10 + digitValue d
    if longer ≤ significandLimit then extend longer ds else (significand, ds.length + 1)

/-- Whether `significand · 10 ^ exponent` stays finite when it is computed in 64-bit floats. -/
def isFinite (significand : Nat) (exponent : Int) : Bool :=
  significand = 0 || exponent ≤ 0 ||
    (exponent ≤ 308 &&
      !Binary.isInfinite Binary.double (Binary.multiply Binary.double
        (Binary.ofInt Binary.double significand)
        (Binary.double.round false (Nat.pow 10 exponent.toNat) 0)))

/-- The end of a float: it is refused when it is too large. -/
def float (significand : Nat) (exponent : Int) (rest : Bytes) :
    Except Fault (Option Int × Bytes) :=
  if isFinite significand exponent then .ok (none, rest) else .error .malformed

/-- The sign of an exponent, if there is one: whether it is negative, and what follows. -/
def exponentSign : Bytes → Bool × Bytes
  | 0x2b :: rest => (false, rest)
  | 0x2d :: rest => (true, rest)
  | rest => (false, rest)

/-- Reads what follows the letter of an exponent. -/
def exponent (significand : Nat) (start : Int) (bs : Bytes) : Except Fault (Option Int × Bytes) :=
  let (negative, bs) := exponentSign bs
  match bs with
  | [] => .error .cutShort
  | d :: rest =>
    if isDigit d then
      let size := ((d :: rest).takeWhile isDigit).foldl (fun n d => n * 10 + digitValue d) 0
      float significand (if negative then start - size else start + size) (rest.dropWhile isDigit)
    else .error .malformed

/-- Whether a byte starts an exponent. -/
def isExponentLetter (b : UInt8) : Bool := b == 0x65 || b == 0x45

/-- Reads the exponent of a number that is known to be a float, if it has one. -/
def scale (significand : Nat) (start : Int) : Bytes → Except Fault (Option Int × Bytes)
  | [] => float significand start []
  | b :: rest =>
    if isExponentLetter b then exponent significand start rest
    else float significand start (b :: rest)

/-- Reads what follows the point of a number. -/
def fraction (significand : Nat) (start : Int) (bs : Bytes) : Except Fault (Option Int × Bytes) :=
  let digits := bs.takeWhile isDigit
  let rest := bs.dropWhile isDigit
  if digits.isEmpty then .error (if rest.isEmpty then .cutShort else .malformed)
  else
    let (longer, left) := extend significand digits
    scale longer (start - (digits.length - left : Nat)) rest

/-- The value of a number without fraction and exponent, unless it counts as a float: minus zero
does, and so does what is below the least 64-bit integer. -/
def integer (negative : Bool) (n : Nat) : Option Int :=
  if !negative then some n
  else if 0 < n ∧ n ≤ 0x8000000000000000 then some (-(n : Int))
  else none

/-- Reads what follows the integer part of a number of which `left` digits were left out. -/
def finish (negative : Bool) (significand left : Nat) :
    Bytes → Except Fault (Option Int × Bytes)
  | [] => if left = 0 then .ok (integer negative significand, []) else float significand left []
  | b :: rest =>
    if b == 0x2e then fraction significand left rest
    else if isExponentLetter b then exponent significand left rest
    else if left = 0 then .ok (integer negative significand, b :: rest)
    else float significand left (b :: rest)

/-- Reads a number after its sign. -/
def number (negative : Bool) : Bytes → Except Fault (Option Int × Bytes)
  | [] => .error .cutShort
  | d :: rest =>
    if d == 0x30 then
      if (rest.head?.any isDigit) then .error .malformed else finish negative 0 0 rest
    else if isDigit d then
      let (significand, left) := extend 0 ((d :: rest).takeWhile isDigit)
      finish negative significand left (rest.dropWhile isDigit)
    else .error .malformed

/-! ## Numbers that nobody asked for -/

/-- Reads what follows the letter of an exponent. -/
def skipExponent (bs : Bytes) : Except Fault Bytes :=
  match (exponentSign bs).2 with
  | [] => .error .malformed
  | d :: rest => if isDigit d then .ok (rest.dropWhile isDigit) else .error .malformed

/-- Reads the exponent of a number, if it has one. -/
def skipScale : Bytes → Except Fault Bytes
  | [] => .ok []
  | b :: rest => if isExponentLetter b then skipExponent rest else .ok (b :: rest)

/-- Reads the fraction and the exponent of a number, if it has them. -/
def skipFinish : Bytes → Except Fault Bytes
  | [] => .ok []
  | b :: rest =>
    if b == 0x2e then
      if (rest.head?.any isDigit) then skipScale (rest.dropWhile isDigit) else .error .malformed
    else skipScale (b :: rest)

/-- Reads a number after its sign and forgets it. Its size does not matter, and a number that is
cut short is malformed. -/
def skipNumber : Bytes → Except Fault Bytes
  | [] => .error .malformed
  | d :: rest =>
    if d == 0x30 then
      if (rest.head?.any isDigit) then .error .malformed else skipFinish rest
    else if isDigit d then skipFinish (rest.dropWhile isDigit)
    else .error .malformed

end LayeredCache.Json
