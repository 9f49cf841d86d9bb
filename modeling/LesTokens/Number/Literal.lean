/-
A written number taken apart: sign, base, digits, fraction, exponent and suffix. Digits keep their
`_` separators here.

The text may be any text. What is wrong with it is reported in a fixed order: an exponent without
digits, then a character after the number, then no digits at all, then a digit of no binary
number.
-/
import LesTokens.Lexeme.Segments
import LesTokens.Number.Error

namespace LesTokens

/-- The type suffix of a number. -/
inductive NumberSuffix where
  | none
  | unsigned
  | long
  | unsignedLong
  | single
  | double
  | decimal
  deriving DecidableEq, Repr

namespace NumberSuffix

/-- The suffix that a text spells, in either case. -/
def ofText? (t : Text) : Option NumberSuffix :=
  match t.map Char.toLower with
  | [] => some none
  | ['u'] => some unsigned
  | ['l'] => some long
  | ['u', 'l'] | ['l', 'u'] => some unsignedLong
  | ['f'] => some single
  | ['d'] => some double
  | ['m'] => some decimal
  | _ => Option.none

/-- Whether the suffix asks for a number that is no integer. -/
def isFloating : NumberSuffix → Bool
  | single | double | decimal => true
  | _ => false

end NumberSuffix

/-- The exponent of a number: its sign, if it has one, and its digits. -/
structure Exponent where
  sign : Option Char
  digits : Text
  deriving DecidableEq, Repr

/-- A written number, taken apart. -/
structure Literal where
  negative : Bool
  base : Base
  integer : Text
  fraction : Option Text
  exponent : Option Exponent
  suffix : NumberSuffix
  deriving DecidableEq, Repr

namespace Literal

/-- The digits after the point; empty without a point. -/
def fractionDigits (l : Literal) : Text := l.fraction.getD []

/-- Whether the number is a float or a decimal. -/
def isFloating (l : Literal) : Bool :=
  l.fraction.isSome || l.exponent.isSome || l.suffix.isFloating

/-- The characters that digits of a base are read from. Binary digits are checked later. -/
def isRunChar (base : Base) (c : Char) : Bool :=
  c = '_' || (if base = .hexadecimal then Base.isDigit .hexadecimal c else c.isDigit)

/-- A minus sign in front. -/
def splitSign : Text → Bool × Text
  | '-' :: t => (true, t)
  | t => (false, t)

/-- A point and the run after it. -/
def splitFraction (base : Base) : Text → Option Text × Text
  | '.' :: t => (some (t.takeWhile (isRunChar base)), t.dropWhile (isRunChar base))
  | t => (none, t)

/-- A sign in front of an exponent's digits. -/
def splitExponentSign : Text → Option Char × Text
  | c :: t => if isSign c then (some c, t) else (none, c :: t)
  | [] => (none, [])

/-- A marker and the exponent after it, which has to have a digit. -/
def splitExponent (base : Base) : Text → Except NumberError (Option Exponent × Text)
  | c :: t =>
    if isExponentMarker base c then
      let (sign, t) := splitExponentSign t
      let digits := t.takeWhile (isRunChar .decimal)
      if digits.any Char.isDigit then
        .ok (some ⟨sign, digits⟩, t.dropWhile (isRunChar .decimal))
      else .error .malformedExponent
    else .ok (none, c :: t)
  | [] => .ok (none, [])

/-- Whether a character is a decimal digit that no binary number has. -/
def isStrayDigit (c : Char) : Bool := '2' ≤ c && c ≤ '9'

/-- Whether the digits of a number are there and belong to its base. -/
def checkDigits (base : Base) (digits : Text) : Except NumberError Unit :=
  if digits.all (· = '_') then .error .missingDigits
  else match base, digits.find? isStrayDigit with
    | .binary, some digit => .error (.invalidDigit digit .binary)
    | _, _ => .ok ()

/-- A text taken apart as a number. -/
def split (t : Text) : Except NumberError Literal := do
  let (negative, t) := splitSign t
  let (base, _, t) := scanBase t
  let integer := t.takeWhile (isRunChar base)
  let (fraction, t) := splitFraction base (t.dropWhile (isRunChar base))
  let (exponent, t) ← splitExponent base t
  let suffix ← match NumberSuffix.ofText? t with
    | some suffix => pure suffix
    | none => throw (.invalidDigit (t.headD '?') base)
  checkDigits base (integer ++ fraction.getD [])
  return ⟨negative, base, integer, fraction, exponent, suffix⟩

end Literal

end LesTokens
