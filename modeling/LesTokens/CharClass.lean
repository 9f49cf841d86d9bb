/-
The character classes the lexical grammar is written in. Outside ASCII only letters and digits
matter, and only to identifiers.

`isIdentContinue_of_isIdentStart`: what may start an identifier may continue one.
-/
import LesTokens.Base
import LesTokens.Unicode.Alphabetic
import LesTokens.Unicode.Numeric

namespace LesTokens

/-- ASCII characters that may start an identifier: letters, `_` and `#`. -/
def isAsciiIdentStart (c : Char) : Bool := c.isAlpha || c = '_' || c = '#'

/-- ASCII characters that may continue an identifier: those that start one, digits and `'`. -/
def isAsciiIdentContinue (c : Char) : Bool := isAsciiIdentStart c || c.isDigit || c = '\x27'

/-- Characters that may start an identifier; outside ASCII, the alphabetic ones. -/
def isIdentStart (c : Char) : Bool :=
  if c.toNat < 128 then isAsciiIdentStart c else Unicode.isAlphabetic c

/-- Characters that may continue an identifier; outside ASCII, the alphabetic and numeric ones. -/
def isIdentContinue (c : Char) : Bool :=
  if c.toNat < 128 then isAsciiIdentContinue c
  else Unicode.isAlphabetic c || Unicode.isNumeric c

/-- The characters operators are made of. -/
def isOperatorChar (c : Char) : Bool :=
  ['~', '!', '%', '^', '&', '*', '\\', '-', '+', '=', '|', '<', '>', '/', '?', ':', '.', '$'].contains c

/-- Characters that may stand in a run after `@`. -/
def isEscapeRunChar (c : Char) : Bool := isIdentContinue c || isOperatorChar c

/-- Characters that end a line. -/
def isLineEnd (c : Char) : Bool := c = '\n' || c = '\r'

/-- Spaces and tabs. -/
def isBlank (c : Char) : Bool := c = ' ' || c = '\t'

theorem isIdentContinue_of_isIdentStart {c : Char} (h : isIdentStart c = true) :
    isIdentContinue c = true := by
  unfold isIdentStart at h
  unfold isIdentContinue isAsciiIdentContinue
  split at h <;> simp_all

/-! ## Classes of bytes -/

/-- The classes as they apply to single bytes: a byte above 127 is in none of them. -/
inductive ByteClass where
  | identStart
  | identContinue
  | operator
  | escapeRun
  | lineEnd
  | digit (base : Base)
  deriving DecidableEq, Repr

namespace ByteClass

/-- Every class, in the order in which they are listed. -/
def all : List ByteClass :=
  [identStart, identContinue, operator, escapeRun, lineEnd,
    digit .binary, digit .decimal, digit .hexadecimal]

/-- Whether an ASCII character is in the class. -/
def holdsChar : ByteClass → Char → Bool
  | identStart, c => isAsciiIdentStart c
  | identContinue, c => isAsciiIdentContinue c
  | operator, c => isOperatorChar c
  | escapeRun, c => isAsciiIdentContinue c || isOperatorChar c
  | lineEnd, c => isLineEnd c
  | digit base, c => base.isDigit c

/-- Whether a byte is in the class. -/
def holds (k : ByteClass) (b : UInt8) : Bool := b < 128 && k.holdsChar (Char.ofNat b.toNat)

end ByteClass

end LesTokens
