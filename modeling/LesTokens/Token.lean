/-
A token: what kind of thing stands where in the source, and its value.
-/
import LesTokens.Span
import LesTokens.Token.Kind

namespace LesTokens

structure Token where
  kind : Kind
  span : Span
  value : Value
  deriving DecidableEq, Repr

namespace Token

/-- The token the same distance further on. -/
def shift (t : Token) (distance : Nat) : Token := { t with span := t.span.shift distance }

/-- Whether two tokens compare as equal. -/
def same (a b : Token) : Bool := a.kind = b.kind && a.span = b.span && a.value.same b.value

/-- A token as listings show it: `Id @ 3..8 = Name(Symbol("hello"))`. -/
def inspect (t : Token) : String :=
  t.kind.label ++ " @ " ++ t.span.render ++
    (if t.value = .absent then "" else " = " ++ t.value.inspect)

end Token

end LesTokens
