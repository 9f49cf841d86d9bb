/-
Binary floating-point numbers, as exact arithmetic on a significand and an exponent of two.

Every operation computes its exact result as a quotient of natural numbers and rounds it once, to
the nearest number of its format, of two equally near ones to the one with the even significand.
A finite number is kept with the exponent its format gives it, so two finite numbers of one format
are the same number exactly if they are the same value. Powers are written `Nat.pow`, so that they
are the same function whatever algebra is in scope.
-/

namespace LesTokens

/-- A binary format: the number of bits in a significand, and the least and greatest exponent a
significand can have. -/
structure FloatFormat where
  precision : Nat
  minExponent : Int
  maxExponent : Int
  deriving DecidableEq, Repr

namespace FloatFormat

/-- The format of 32 bits. -/
def single : FloatFormat := ⟨24, -149, 104⟩

/-- The format of 64 bits. -/
def double : FloatFormat := ⟨53, -1074, 971⟩

/-- The greatest `n` for which `2 ^ n` is finite. -/
def greatestPower (f : FloatFormat) : Int := f.maxExponent + f.precision - 1

end FloatFormat

/-- A floating-point number: not a number, infinite, or `significand * 2 ^ exponent` with a
sign. -/
inductive Floating where
  | nan
  | infinite (negative : Bool)
  | finite (negative : Bool) (significand : Nat) (exponent : Int)
  deriving DecidableEq, Repr

namespace Floating

/-- Whether a number is neither infinite nor not a number. -/
def isFinite : Floating → Bool
  | finite .. => true
  | _ => false

def isInfinite : Floating → Bool
  | infinite _ => true
  | _ => false

def isNan : Floating → Bool
  | nan => true
  | _ => false

/-- Whether a number is zero of either sign. -/
def isZero : Floating → Bool
  | finite _ significand _ => significand = 0
  | _ => false

/-- Zero with a sign. -/
def zero (f : FloatFormat) (negative : Bool) : Floating := finite negative 0 f.minExponent

/-- Whether two numbers compare as equal: zeros of either sign do, and nothing is equal to what is
not a number. -/
def same : Floating → Floating → Bool
  | nan, _ => false
  | _, nan => false
  | a, b => a = b || a.isZero && b.isZero

/-! ## Rounding -/

/-- The whole number nearest to a quotient, of two the even one. -/
def roundHalfEven (num den : Nat) : Nat :=
  let q := num / den
  let r := num % den
  if den < 2 * r ∨ den = 2 * r ∧ q % 2 = 1 then q + 1 else q

/-- The quotient that measures `num / den` in units of `2 ^ e`. -/
def inUnits (num den : Nat) (e : Int) : Nat × Nat :=
  (num * Nat.pow 2 (-e).toNat, den * Nat.pow 2 e.toNat)

/-- The exponent of the last bit that a format keeps of a quotient. -/
def lastExponent (f : FloatFormat) (num den : Nat) : Int :=
  let low := (num.log2 : Int) - den.log2 - f.precision
  let (n, d) := inUnits num den low
  max f.minExponent (if n < d * Nat.pow 2 f.precision then low else low + 1)

/-- The number of a format nearest to a quotient. -/
def round (f : FloatFormat) (negative : Bool) (num den : Nat) : Floating :=
  if num = 0 then zero f negative
  else
    let e := lastExponent f num den
    let (n, d) := inUnits num den e
    let s := roundHalfEven n d
    let (s, e) :=
      if s = Nat.pow 2 f.precision then (Nat.pow 2 (f.precision - 1), e + 1) else (s, e)
    if f.maxExponent < e then infinite negative else finite negative s e

/-- The number of a format nearest to `significand * 2 ^ exponent`. -/
def roundDyadic (f : FloatFormat) (negative : Bool) (significand : Nat) (exponent : Int) :
    Floating :=
  round f negative (significand * Nat.pow 2 exponent.toNat) (Nat.pow 2 (-exponent).toNat)

/-- The number of a format nearest to `significand * 10 ^ exponent`. -/
def ofDecimal (f : FloatFormat) (significand : Nat) (exponent : Int) : Floating :=
  round f false (significand * Nat.pow 10 exponent.toNat) (Nat.pow 10 (-exponent).toNat)

/-! ## Arithmetic -/

def ofNat (f : FloatFormat) (n : Nat) : Floating := round f false n 1

/-- The number with the other sign. -/
def neg : Floating → Floating
  | nan => nan
  | infinite negative => infinite !negative
  | finite negative s e => finite (!negative) s e

def mul (f : FloatFormat) : Floating → Floating → Floating
  | finite n s e, finite n' s' e' => roundDyadic f (n ^^ n') (s * s') (e + e')
  | nan, _ => nan
  | _, nan => nan
  | infinite n, infinite n' => infinite (n ^^ n')
  | infinite n, finite n' s _ => if s = 0 then nan else infinite (n ^^ n')
  | finite n s _, infinite n' => if s = 0 then nan else infinite (n ^^ n')

/-- A signed significand as a multiple of `2 ^ unit`, for a unit no larger than its exponent. -/
def multipleOf (unit : Int) (negative : Bool) (significand : Nat) (exponent : Int) : Int :=
  let magnitude : Int := (significand * Nat.pow 2 (exponent - unit).toNat : Nat)
  if negative then -magnitude else magnitude

def add (f : FloatFormat) : Floating → Floating → Floating
  | finite n s e, finite n' s' e' =>
    let unit := min e e'
    let sum := multipleOf unit n s e + multipleOf unit n' s' e'
    if sum = 0 then zero f (n && n') else roundDyadic f (sum < 0) sum.natAbs unit
  | nan, _ => nan
  | _, nan => nan
  | infinite n, infinite n' => if n = n' then infinite n else nan
  | infinite n, finite .. => infinite n
  | finite .., infinite n => infinite n

/-- A power of two. A negative power is the reciprocal of a positive one, and so zero once that one
is infinite. -/
def twoPow (f : FloatFormat) (n : Int) : Floating :=
  if f.greatestPower < n then infinite false
  else if n < -f.greatestPower then zero f false
  else roundDyadic f false 1 n

/-- The nearest number of another format. -/
def convert (f : FloatFormat) : Floating → Floating
  | nan => nan
  | infinite n => infinite n
  | finite n s e => roundDyadic f n s e

end Floating

end LesTokens
