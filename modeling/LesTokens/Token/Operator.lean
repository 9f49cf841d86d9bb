/-
Which kind of operator a run of operator characters is, and its name: the run after a `#`, so that
no operator is named like an identifier. An identifier after a backslash is an operator named like
the identifier, and a run after two backslashes is named like the run after the first.
-/
import LesTokens.CharClass
import LesTokens.Lexeme.Run
import LesTokens.Token.Kind

namespace LesTokens

/-- The name of an operator. -/
def operatorName (t : Text) : Value := .name ('#' :: t)

/-- The comparisons that end in `=`. -/
def comparisons : List Text := [['=', '='], ['!', '='], ['<', '='], ['>', '=']]

/-- Whether a run is an assignment: it ends in `=`, and is neither a comparison nor a longer run
that starts with `=`. -/
def isAssignment (t : Text) : Bool :=
  t.getLast? = some '=' && !comparisons.contains t && !(t.head? = some '=' && 1 < t.length)

/-- The kind and the name of an operator. -/
def classifyOperator (t : Text) : Kind × Value :=
  match t with
  | ['.'] => (.dot, operatorName t)
  | [':'] => (.colon, operatorName t)
  | '\\' :: rest =>
    if opensWith isIdentStart rest then (.operator, .name rest)
    else if opensWith (· = '\\') rest then (.suffixOperator, .name rest)
    else (if isAssignment t then .assignment else .operator, operatorName t)
  | _ => (if isAssignment t then .assignment else .operator, operatorName t)

end LesTokens
