/-
What can be wrong with a source text, and where. Nothing stops the lexer: a diagnostic is reported
beside the token that it is about.
-/
import LesTokens.Number.Error
import LesTokens.Span
import LesTokens.Text.Quoted

namespace LesTokens

/-- What is wrong. -/
inductive Defect where
  /-- A quoted form whose closing delimiter is missing. -/
  | unterminatedString (delimiter : Text)
  | unterminatedComment
  | malformedNumber (error : NumberError)
  /-- A character literal that is not exactly one character. -/
  | characterCount (count : Nat)
  /-- A backslash that starts no escape. -/
  | unrecognizedEscape (escape : Text)
  /-- A character that starts no token. -/
  | unexpectedCharacter (c : Char)
  deriving DecidableEq, Repr

def Defect.message : Defect → String
  | unterminatedString delimiter =>
    "unterminated literal: missing closing `" ++ String.ofList delimiter ++ "`"
  | unterminatedComment => "unterminated block comment: missing closing `*/`"
  | malformedNumber error => "malformed numeric literal: " ++ error.message
  | characterCount count =>
    "character literal must contain exactly one character, found " ++ toString count
  | unrecognizedEscape escape =>
    "unrecognized escape sequence `" ++ String.ofList escape ++ "`"
  | unexpectedCharacter c => "unexpected character " ++ String.ofList (Text.quotedChar c)

/-- A defect and where it is. -/
structure Diagnostic where
  span : Span
  defect : Defect
  deriving DecidableEq, Repr

namespace Diagnostic

def message (d : Diagnostic) : String := d.defect.message

/-- The diagnostic the same distance further on. -/
def shift (d : Diagnostic) (distance : Nat) : Diagnostic := { d with span := d.span.shift distance }

end Diagnostic

end LesTokens
