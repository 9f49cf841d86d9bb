/-
The value of a written number.
-/
import LesTokens.Number.Fractional

namespace LesTokens

/-- The value of a number taken apart. -/
def Literal.value (l : Literal) : Except NumberError Value :=
  if l.isFloating then l.fractionalValue else l.integerValue

/-- The value that a text stands for as a number, or what is wrong with it. -/
def readNumber (t : Text) : Except NumberError Value := do
  let l ← Literal.split t
  l.value

end LesTokens
