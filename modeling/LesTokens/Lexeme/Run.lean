/-
Runs of operator characters, and the runs that `@` turns into names. Both stop before a comment,
so a comment can follow either without a space.

`operatorTail_append`, `escapeRun_append`: a run and what follows it make up the text.
-/
import LesTokens.CharClass

namespace LesTokens

/-- Whether a text opens with a character of a class. -/
def opensWith (p : Char → Bool) : Text → Bool
  | [] => false
  | c :: _ => p c

/-- Whether a comment starts here. -/
def opensComment : Text → Bool
  | '/' :: c :: _ => c = '/' || c = '*'
  | _ => false

/-- Whether a fraction without an integer part starts here. -/
def opensFraction : Text → Bool
  | '.' :: c :: _ => c.isDigit
  | _ => false

/-! ## Operators -/

/-- The operator characters that follow the first one of an operator. They stop before a comment
and before a fraction. -/
def operatorTail : Text → Text × Text
  | [] => ([], [])
  | c :: t =>
    if isOperatorChar c && !opensComment (c :: t) && !opensFraction (c :: t) then
      let (taken, rest) := operatorTail t
      (c :: taken, rest)
    else ([], c :: t)

theorem operatorTail_append (t : Text) : (operatorTail t).1 ++ (operatorTail t).2 = t := by
  induction t with
  | nil => rfl
  | cons c t ih =>
    unfold operatorTail
    split <;> simp [ih]

/-! ## Escaped runs -/

/-- Identifier and operator characters, up to a comment. -/
def escapeRunTail : Text → Text × Text
  | [] => ([], [])
  | c :: t =>
    if isEscapeRunChar c && !opensComment (c :: t) then
      let (taken, rest) := escapeRunTail t
      (c :: taken, rest)
    else ([], c :: t)

/-- The run that `@` turns into a name. It does not start with `'`, which opens a character
literal. -/
def escapeRun (t : Text) : Text × Text :=
  if opensWith (· = '\x27') t then ([], t) else escapeRunTail t

theorem escapeRunTail_append (t : Text) : (escapeRunTail t).1 ++ (escapeRunTail t).2 = t := by
  induction t with
  | nil => rfl
  | cons c t ih =>
    unfold escapeRunTail
    split <;> simp [ih]

theorem escapeRun_append (t : Text) : (escapeRun t).1 ++ (escapeRun t).2 = t := by
  unfold escapeRun
  split
  · rfl
  · exact escapeRunTail_append t

end LesTokens
