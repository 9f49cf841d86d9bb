/-
Decimals of 96 bits: a magnitude, a sign, and up to 28 digits after the point. They are kept
without trailing zeros after the point and without a negative zero, so equal values are equal
decimals.

`Decimal.ofDigits?` reads a written number: it keeps as many digits after the point as fit, and
rounds the rest away once.
-/
import LesTokens.Base

namespace LesTokens

/-- The number `mantissa / 10 ^ scale`, with a sign. -/
structure Decimal where
  mantissa : Nat
  scale : Nat
  negative : Bool
  deriving DecidableEq, Repr

namespace Decimal

/-- The greatest magnitude. -/
def maxMantissa : Nat := Nat.pow 2 96 - 1

/-- The most digits after the point. -/
def maxScale : Nat := 28

def zero : Decimal := ⟨0, 0, false⟩

/-- The decimal of a magnitude, with the trailing zeros after the point removed. -/
def normalized (mantissa : Nat) (scale : Nat) (negative : Bool) : Decimal :=
  match scale with
  | 0 => ⟨mantissa, 0, negative && mantissa != 0⟩
  | scale + 1 =>
    if mantissa % 10 = 0 then normalized (mantissa / 10) scale negative
    else ⟨mantissa, scale + 1, negative⟩

/-- The decimal of a magnitude; none if it needs more bits or more digits than there are. -/
def ofParts? (mantissa scale : Nat) (negative : Bool) : Option Decimal :=
  if mantissa ≤ maxMantissa ∧ scale ≤ maxScale then some (normalized mantissa scale negative)
  else none

/-! ## Reading digits -/

/-- The values of the decimal digits in a text; all else is left out. -/
def decimalDigits (t : Text) : List Nat :=
  (t.filter Char.isDigit).map fun c => c.toNat - '0'.toNat

/-- The number that digits stand for without the last `cut` of them, rounded by the first digit
that is cut: half a unit goes away from zero. -/
def roundedValue (digits : List Nat) (cut : Nat) : Nat :=
  if cut ≤ digits.length then
    let keep := digits.length - cut
    let up := match digits[keep]? with
      | some d => if 5 ≤ d then 1 else 0
      | none => 0
    valueOfDigits 10 (digits.take keep) + up
  else 0

/-- The decimal with `places` digits after the point of digits of which `scale` stand there; none
if its magnitude does not fit. -/
def keeping? (digits : List Nat) (scale : Nat) (negative : Bool) (places : Nat) : Option Decimal :=
  ofParts? (roundedValue digits (scale - places)) places negative

/-- The decimal with the most digits after the point, at most `places`, that fits. -/
def fit? (digits : List Nat) (scale : Nat) (negative : Bool) : Nat → Option Decimal
  | 0 => keeping? digits scale negative 0
  | places + 1 =>
    keeping? digits scale negative (places + 1) <|> fit? digits scale negative places

/-- The most zeros and digits, together, that a positive exponent may make. -/
def maxWidth : Nat := 40

/-- The decimal nearest to `integer.fraction * 10 ^ exponent`; none if it is too large. Characters
that are no digits are left out. -/
def ofDigits? (integer fraction : Text) (exponent : Int) (negative : Bool) : Option Decimal :=
  let places := (decimalDigits fraction).length
  let digits := (decimalDigits integer ++ decimalDigits fraction).dropWhile (· = 0)
  match (places : Int) - exponent with
  | .ofNat scale => fit? digits scale negative (min scale maxScale)
  | .negSucc n =>
    let zeros := n + 1
    if maxWidth < digits.length + zeros then if digits.isEmpty then some zero else none
    else fit? (digits ++ List.replicate zeros 0) 0 negative 0

/-! ## Writing -/

/-- The digits of the magnitude, with a point before the last `scale` of them. -/
def magnitudeText (d : Decimal) : List Char :=
  let digits := Nat.toDigits 10 d.mantissa
  if d.scale = 0 then digits
  else if d.scale < digits.length then
    digits.take (digits.length - d.scale) ++ '.' :: digits.drop (digits.length - d.scale)
  else '0' :: '.' :: (List.replicate (d.scale - digits.length) '0' ++ digits)

/-- A decimal as text: `-0.25`. -/
def render (d : Decimal) : String :=
  (if d.negative then "-" else "") ++ String.ofList d.magnitudeText

end Decimal

end LesTokens
