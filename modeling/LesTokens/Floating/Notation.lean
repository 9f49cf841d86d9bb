/-
How floating-point numbers are written: the digits are the shortest that read back, and a
`FloatNotation` says where the point goes and when an exponent is used instead.
-/
import LesTokens.Floating.Shortest

namespace LesTokens

/-- The decisions of one way of writing floating-point numbers. -/
structure FloatNotation where
  /-- Which of two equally near shortest decimals is written. -/
  tie : TieBreak
  /-- The least and greatest power of ten of a first digit that is written without an exponent;
  without bounds no number has an exponent. -/
  positional : Option (Int × Int)
  /-- Whether a whole number without an exponent ends in `.0`. -/
  keepsPoint : Bool
  /-- Whether a positive exponent has a sign. -/
  plusSign : Bool

namespace FloatNotation

/-- Without exponents, and whole numbers without a point: `0.1`, `1`, `-0`. -/
def plain : FloatNotation where
  tie := .awayFromZero
  positional := none
  keepsPoint := false
  plusSign := false

/-- With an exponent below `1e-4` and from `1e16` on, and whole numbers with a point: `1.0`,
`1e-5`. -/
def listing : FloatNotation where
  tie := .awayFromZero
  positional := some (-4, 15)
  keepsPoint := true
  plusSign := false

/-- The notation of JSON: with an exponent below `10 ^ least` and from `10 ^ limit` on. It
has no numbers for what is not finite. -/
def json (least limit : Int) : FloatNotation where
  tie := .toEven
  positional := some (least, limit - 1)
  keepsPoint := true
  plusSign := true

/-- Digits with a point before, within or after them; `point` digits stand before it. -/
def positionalText (keepsPoint : Bool) (digits : List Char) (point : Int) : List Char :=
  if point ≤ 0 then '0' :: '.' :: (List.replicate (-point).toNat '0' ++ digits)
  else if digits.length ≤ point then
    digits ++ List.replicate (point - digits.length).toNat '0' ++
      (if keepsPoint then ['.', '0'] else [])
  else digits.take point.toNat ++ '.' :: digits.drop point.toNat

/-- Digits with a point after the first, and a power of ten. -/
def exponentText (plusSign : Bool) (digits : List Char) (exponent : Int) : List Char :=
  let mantissa := match digits with
    | d :: rest@(_ :: _) => d :: '.' :: rest
    | ds => ds
  mantissa ++ 'e' :: ((if plusSign && 0 < exponent then ['+'] else []) ++ (toString exponent).toList)

/-- A finite number of a format, without its sign. -/
def magnitudeText (style : FloatNotation) (f : FloatFormat) (s : Nat) (e : Int) : List Char :=
  let short := ShortDecimal.ofFinite f style.tie s e
  let digits := Nat.toDigits 10 short.significand
  let point := digits.length + short.exponent
  let inRange := match style.positional with
    | none => true
    | some (least, greatest) => short.significand = 0 || least ≤ point - 1 && point - 1 ≤ greatest
  if inRange then positionalText style.keepsPoint digits point
  else exponentText style.plusSign digits (point - 1)

/-- A number of a format as text. -/
def write (style : FloatNotation) (f : FloatFormat) : Floating → String
  | .nan => "NaN"
  | .infinite negative => (if negative then "-" else "") ++ "inf"
  | .finite negative s e =>
    (if negative then "-" else "") ++ String.ofList (style.magnitudeText f s e)

end FloatNotation

end LesTokens
