/-
The value of a number with a fraction, an exponent or a floating suffix.

Decimal digits are read exactly and rounded once. Binary and hexadecimal digits are taken in one
by one, rounding as they go, and the result is scaled by a power of two in two steps, so that a
scale below the least exponent does not lose a number that is not.
-/
import LesTokens.Number.Integer

namespace LesTokens.Literal

/-- The digits before and after the point. -/
def allDigits (l : Literal) : List Nat := digitValues l.integer ++ digitValues l.fractionDigits

/-! ## Exponents -/

/-- The exponent that a sign and digits stand for. -/
def signedExponent (sign : Option Char) (magnitude : Nat) : Int :=
  if sign = some '-' then -magnitude else magnitude

/-- The exponent of the number, zero without one. -/
def exponentValue (l : Literal) : Int :=
  match l.exponent with
  | some e => signedExponent e.sign (valueOfDigits 10 (digitValues e.digits))
  | none => 0

/-- An exponent that has come this far takes no more of its digits. Only a number with about as many
digits of its own can make up for the ones left out, and is then read as another number. -/
def exponentLimit : Nat := 65536

/-- The exponent of the number, its digits read up to the limit. -/
def boundedExponent (l : Literal) : Int :=
  match l.exponent with
  | some e =>
    signedExponent e.sign <|
      (digitValues e.digits).foldl (fun n d => if n < exponentLimit then 10 * n + d else n) 0
  | none => 0

/-- The exponent of the number, if it is a value of 64 bits. -/
def wideExponent (l : Literal) : Except NumberError Int :=
  if IntegerType.int64.holds l.exponentValue then .ok l.exponentValue
  else .error (.overflow .double)

/-! ## Floats -/

/-- The float nearest to a number in base ten. -/
def decimalFloat (l : Literal) : Floating :=
  Floating.ofDecimal .double (valueOfDigits 10 l.allDigits)
    (l.boundedExponent - (digitValues l.fractionDigits).length)

/-- The number of bits in a digit. -/
def bitsPerDigit : Base → Nat
  | .hexadecimal => 4
  | _ => 1

/-- The float that digits stand for, taken in one by one. -/
def foldDigits (radix : Nat) (digits : List Nat) : Floating :=
  digits.foldl
    (fun m d => Floating.add .double (Floating.mul .double m (.ofNat .double radix)) (.ofNat .double d))
    (.zero .double false)

/-- A float times a power of two, in two steps. -/
def scaleByPower (m : Floating) (scale : Int) : Floating :=
  let half := scale.tdiv 2
  Floating.mul .double (Floating.mul .double m (.twoPow .double half)) (.twoPow .double (scale - half))

/-- The float of a binary or hexadecimal number. -/
def radixFloat (l : Literal) : Except NumberError Floating := do
  let exponent ← l.wideExponent
  let scale := exponent - bitsPerDigit l.base * (digitValues l.fractionDigits).length
  if IntegerType.int32.holds scale then
    let m := foldDigits l.base.radix l.allDigits
    return if m.isZero then .zero .double false else scaleByPower m scale
  else throw (.overflow .double)

/-- The magnitude of the number as a float of 64 bits. -/
def floatMagnitude (l : Literal) : Except NumberError Floating :=
  if l.base = .decimal then .ok l.decimalFloat else l.radixFloat

/-- The value of a float. A number with the suffix of the smaller type is rounded to the larger
one first. -/
def floatValue (l : Literal) : Except NumberError Value := do
  let magnitude ← l.floatMagnitude
  let v := if l.negative then magnitude.neg else magnitude
  if l.suffix = .single then
    let v := Floating.convert .single v
    if v.isInfinite then throw (.overflow .single) else return .float .single v
  else if v.isFinite then return .float .double v
  else throw (.overflow .double)

/-! ## Decimals -/

/-- The decimal with the digits of a float. -/
def decimalOfFloat? (v : Floating) (negative : Bool) : Option Decimal :=
  let text := (FloatNotation.plain.write .double v).toList
  Decimal.ofDigits? (text.takeWhile (· ≠ '.')) ((text.dropWhile (· ≠ '.')).drop 1) 0 negative

/-- The decimal of the number, if it has one: exact in base ten, by way of a float in the others. -/
def decimal? (l : Literal) : Except NumberError (Option Decimal) :=
  if l.base = .decimal then do
    let exponent ← l.wideExponent
    return if IntegerType.int32.holds exponent then
      Decimal.ofDigits? l.integer l.fractionDigits exponent l.negative
    else none
  else do
    let v ← l.radixFloat
    return if v.isFinite then decimalOfFloat? v l.negative else none

/-- The value of a decimal. -/
def decimalValue (l : Literal) : Except NumberError Value := do
  match ← l.decimal? with
  | some d => return .decimal d
  | none => throw (.overflow .decimal)

/-- The value of a number that is no integer. -/
def fractionalValue (l : Literal) : Except NumberError Value :=
  match l.suffix with
  | .decimal => l.decimalValue
  | .unsigned | .long | .unsignedLong => .error .integerSuffix
  | _ => l.floatValue

end LesTokens.Literal
