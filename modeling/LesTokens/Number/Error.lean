/-
Why a written number has no value.
-/
import LesTokens.Base

namespace LesTokens

/-- A type, or a group of types, that a value can be too large for. -/
inductive NumberTarget where
  | uint32
  | int64
  | uint64
  | anyUnsigned
  | single
  | double
  | decimal
  deriving DecidableEq, Repr

def NumberTarget.describe : NumberTarget → String
  | uint32 => "u32"
  | int64 => "i64"
  | uint64 => "u64"
  | anyUnsigned => "an unsigned type"
  | single => "f32"
  | double => "f64"
  | decimal => "decimal"

/-- Why a written number is malformed. -/
inductive NumberError where
  /-- No digit where there has to be one: `0x`. -/
  | missingDigits
  /-- A character that is no digit of the base: `0b102`. -/
  | invalidDigit (digit : Char) (base : Base)
  /-- An exponent without digits: `2.0e+`. -/
  | malformedExponent
  /-- A value too large for the type that the number asks for. -/
  | overflow (target : NumberTarget)
  /-- An integer suffix after a fraction or an exponent: `1.5L`. -/
  | integerSuffix
  deriving DecidableEq, Repr

def NumberError.message : NumberError → String
  | missingDigits => "no digits in literal"
  | invalidDigit digit base =>
    "invalid digit `" ++ String.ofList [digit] ++ "` for base " ++ toString base.radix
  | malformedExponent => "exponent has no digits"
  | overflow target => "value does not fit in " ++ target.describe
  | integerSuffix => "integer suffix on a floating-point literal"

end LesTokens
