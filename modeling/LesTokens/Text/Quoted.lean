/-
A text or a character between quotes, as listings and messages show it: with every character
that a reader could miss or misread written as an escape.
-/
import LesTokens.Text
import LesTokens.Unicode.DefaultIgnorable
import LesTokens.Unicode.GraphemeExtend
import LesTokens.Unicode.Unprintable

namespace LesTokens.Text

/-- A character by its code point, in lower-case hexadecimal: `\u{301}`. -/
def codePointEscape (c : Char) : Text :=
  ['\\', 'u', '\x7b'] ++ Nat.toDigits 16 c.toNat ++ ['\x7d']

/-- Whether a character cannot be seen, or not told apart, where it stands: it is drawn onto the one
before it, is shown as nothing, or has no visible form. -/
def isHidden (c : Char) : Bool :=
  Unicode.isAttached c || Unicode.isDefaultIgnorable c || Unicode.isUnprintable c

/-- A character as it stands between two quotes of the kind `quote`. The other kind of quote needs
no escape. -/
def escaped (quote c : Char) : Text :=
  if c = '\x00' then ['\\', '0']
  else if c = '\t' then ['\\', 't']
  else if c = '\r' then ['\\', 'r']
  else if c = '\n' then ['\\', 'n']
  else if c = '\\' ∨ c = quote then ['\\', c]
  else if isHidden c then codePointEscape c
  else [c]

/-- A text between two quotes of the kind `quote`. -/
def quotedBy (quote : Char) (t : Text) : Text :=
  quote :: (t.flatMap (escaped quote) ++ [quote])

/-- A text between double quotes. -/
def quoted (t : Text) : Text := quotedBy '\x22' t

/-- A character between single quotes. -/
def quotedChar (c : Char) : Text := quotedBy '\x27' [c]

end LesTokens.Text
