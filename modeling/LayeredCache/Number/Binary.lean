/-!
# Binary floating-point formats

Floats are kept as the bits of an IEEE binary format. This module rounds exact numbers to such
bits and takes bits apart again, all in whole-number arithmetic, so that conversions between the
widths and the few operations that the cache needs can be computed and reasoned about without the
machine's own floats.

## Main definitions

* `Binary.Format` — how many bits the fraction and the exponent have; `single` and `double`.
* `Binary.Format.round` — the bits nearest to `m · 2 ^ e`, a tie going to the even neighbour.
* `Binary.Format.view` — what bits stand for: a number `m · 2 ^ e`, an infinity or no number.
* `Binary.ofInt`, `Binary.convert`, `Binary.divide` — integers as floats, change of width, division.
* `Binary.fixedPoint` — a float with a given number of decimal places.
-/

set_option autoImplicit false

namespace LayeredCache.Binary

/-- A binary interchange format. -/
structure Format where
  fractionBits : Nat
  exponentBits : Nat
  deriving DecidableEq, Repr

/-- The 32-bit format. -/
def single : Format := ⟨23, 8⟩

/-- The 64-bit format. -/
def double : Format := ⟨52, 11⟩

/-- What the bits of a float stand for. -/
inductive View where
  /-- The number `significand · 2 ^ exponent`, with the given sign. -/
  | finite (negative : Bool) (significand : Nat) (exponent : Int)
  | infinite (negative : Bool)
  /-- No number; the payload tells why. -/
  | notANumber (negative : Bool) (payload : Nat)
  deriving DecidableEq, Repr

/-- The quotient of `n` and `2 ^ shift`, rounded to nearest with ties to even; a negative shift
multiplies. -/
def shiftRounded (n : Nat) (shift : Int) : Nat :=
  if shift ≤ 0 then n * Nat.pow 2 (-shift).toNat
  else
    let unit := Nat.pow 2 shift.toNat
    let quotient := n / unit
    let rest := n % unit
    if unit < 2 * rest || (unit == 2 * rest && quotient % 2 == 1) then quotient + 1 else quotient

namespace Format

/-- The exponent's offset. -/
def bias (f : Format) : Nat := Nat.pow 2 (f.exponentBits - 1) - 1

/-- The greatest exponent field, kept for infinities and for what is no number. -/
def topExponent (f : Format) : Nat := Nat.pow 2 f.exponentBits - 1

/-- The bits of the positive infinity. -/
def infinity (f : Format) : Nat := f.topExponent * Nat.pow 2 f.fractionBits

/-- The sign bit. -/
def signBit (f : Format) (negative : Bool) : Nat :=
  if negative then Nat.pow 2 (f.fractionBits + f.exponentBits) else 0

/-- The bits nearest to `significand · 2 ^ exponent`: a tie goes to the even neighbour, and what
lies beyond the greatest number by half a unit or more is infinite. -/
def round (f : Format) (negative : Bool) (significand : Nat) (exponent : Int) : Nat :=
  if significand = 0 then f.signBit negative
  else
    let leading : Int := exponent + significand.log2
    let least : Int := 1 - (f.bias : Int)
    let bits :=
      if leading < least then shiftRounded significand (least - f.fractionBits - exponent)
      else
        let scaled := shiftRounded significand (leading - f.fractionBits - exponent)
        (leading + f.bias).toNat * Nat.pow 2 f.fractionBits + (scaled - Nat.pow 2 f.fractionBits)
    f.signBit negative + min bits f.infinity

/-- What bits of the format stand for. -/
def view (f : Format) (bits : Nat) : View :=
  let fraction := bits % Nat.pow 2 f.fractionBits
  let exponent := bits / Nat.pow 2 f.fractionBits % Nat.pow 2 f.exponentBits
  let negative := bits / Nat.pow 2 (f.fractionBits + f.exponentBits) % 2 == 1
  if exponent = f.topExponent then
    if fraction = 0 then .infinite negative else .notANumber negative fraction
  else if exponent = 0 then .finite negative fraction (1 - (f.bias : Int) - f.fractionBits)
  else
    .finite negative (fraction + Nat.pow 2 f.fractionBits)
      (exponent - (f.bias : Int) - f.fractionBits)

end Format

/-- The float nearest to an integer. -/
def ofInt (f : Format) (i : Int) : Nat := f.round (i < 0) i.natAbs 0

/-- The float of another format nearest to a float. What is no number stays so: its payload keeps
its upper bits and is marked as quiet. -/
def convert (source target : Format) (bits : Nat) : Nat :=
  match source.view bits with
  | .finite negative m e => target.round negative m e
  | .infinite negative => target.signBit negative + target.infinity
  | .notANumber negative payload =>
    let dropped := payload % Nat.pow 2 (source.fractionBits - target.fractionBits)
    let moved := shiftRounded (payload - dropped)
      ((source.fractionBits : Int) - target.fractionBits)
    let quiet := Nat.pow 2 (target.fractionBits - 1)
    target.signBit negative + target.infinity + (if moved < quiet then moved + quiet else moved)

/-- Whether the bits are those of an infinity. -/
def isInfinite (f : Format) (bits : Nat) : Bool :=
  match f.view bits with
  | .infinite _ => true
  | _ => false

/-- The quotient of two positive numbers `m · 2 ^ d` and `n · 2 ^ e`, rounded. The quotient of the
significands is computed with more bits than the format has, and its last bit records whether
anything is left over. -/
def roundQuotient (f : Format) (m : Nat) (d : Int) (n : Nat) (e : Int) : Nat :=
  let extra := f.fractionBits + 3 + n.log2
  let scaled := m * Nat.pow 2 extra
  let sticky := if scaled % n = 0 then 0 else 1
  f.round false (2 * (scaled / n) + sticky) (d - e - extra - 1)

/-- The quotient of two floats that are not negative; zero when the divisor is not a positive
number. -/
def divide (f : Format) (a b : Nat) : Nat :=
  match f.view a, f.view b with
  | .finite _ m d, .finite _ n e => if n = 0 then 0 else roundQuotient f m d n e
  | _, _ => 0

/-- The product of two floats that are not negative. -/
def multiply (f : Format) (a b : Nat) : Nat :=
  match f.view a, f.view b with
  | .finite _ m d, .finite _ n e => f.round false (m * n) (d + e)
  | _, _ => f.infinity

/-- The digits of a float that is not negative with `places` decimal places; a tie goes to the even
last digit. -/
def fixedPoint (f : Format) (places bits : Nat) : String :=
  match f.view bits with
  | .finite _ m e =>
    let scaled := shiftRounded (m * Nat.pow 10 places) (-e)
    let fraction := Nat.toDigits 10 (scaled % Nat.pow 10 places)
    toString (scaled / Nat.pow 10 places) ++ "." ++
      String.ofList (List.replicate (places - fraction.length) '0' ++ fraction)
  | .infinite _ => "inf"
  | .notANumber _ _ => "NaN"

end LayeredCache.Binary
