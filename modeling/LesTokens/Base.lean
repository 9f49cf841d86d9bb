/-
The three bases a number can be written in.
-/
import LesTokens.Text

namespace LesTokens

/-- The base of a written number. -/
inductive Base where
  | binary
  | decimal
  | hexadecimal
  deriving DecidableEq, Repr

namespace Base

def radix : Base → Nat
  | binary => 2
  | decimal => 10
  | hexadecimal => 16

/-- Whether a character is a digit of the base. -/
def isDigit (base : Base) (c : Char) : Bool :=
  match base with
  | binary => c = '0' || c = '1'
  | decimal => c.isDigit
  | hexadecimal => c.isDigit || 'a' ≤ c && c ≤ 'f' || 'A' ≤ c && c ≤ 'F'

end Base

/-- The value of a hexadecimal digit, and so of a digit of any base. -/
def digitValue? (c : Char) : Option Nat :=
  if '0' ≤ c ∧ c ≤ '9' then some (c.toNat - '0'.toNat)
  else if 'a' ≤ c ∧ c ≤ 'f' then some (c.toNat - 'a'.toNat + 10)
  else if 'A' ≤ c ∧ c ≤ 'F' then some (c.toNat - 'A'.toNat + 10)
  else none

/-- The values of the digits in a run, its separators left out. -/
def digitValues (run : Text) : List Nat := run.filterMap digitValue?

/-- The number that digits of a radix stand for. -/
def valueOfDigits (radix : Nat) (digits : List Nat) : Nat :=
  digits.foldl (fun n d => n * radix + d) 0

end LesTokens
