/-
What a lexeme is, as far as its extent alone tells. A malformed lexeme has a tag of its own, so
scanning never fails.

Codes are grouped, so that the group of a tag can be read off its code: literals from 0, operators
from 32, delimiters from 64, trivia from 112, malformed lexemes from 240, the end of input last.
-/
import LesTokens.Text

namespace LesTokens

/-- The tag of a lexeme. -/
inductive Tag where
  | ident
  /-- `@` before a run of characters or a back-quoted name. -/
  | escapedIdent
  /-- `@@` before a run of characters or a quoted name. -/
  | symbol
  | number
  | string
  | char
  | backQuote
  | tripleQuote
  | operator
  /-- A lone `@`. -/
  | atSign
  | comma
  | semicolon
  | leftParen
  | rightParen
  | leftBrace
  | rightBrace
  | leftBracket
  | rightBracket
  | spaces
  | newline
  | lineComment
  | blockComment
  | shebang
  | unterminatedString
  | unterminatedChar
  | unterminatedBackQuote
  | unterminatedTripleQuote
  | unterminatedBlockComment
  | unterminatedSymbol
  | unterminatedEscapedIdent
  /-- A character that starts no lexeme. -/
  | unknown
  /-- The end of the input. -/
  | endOfInput
  deriving DecidableEq, Repr

namespace Tag

/-- The code of a tag. -/
def code : Tag → Nat
  | ident => 0
  | escapedIdent => 1
  | symbol => 2
  | number => 3
  | string => 4
  | char => 5
  | backQuote => 6
  | tripleQuote => 7
  | operator => 32
  | atSign => 33
  | comma => 34
  | semicolon => 35
  | leftParen => 64
  | rightParen => 65
  | leftBrace => 66
  | rightBrace => 67
  | leftBracket => 68
  | rightBracket => 69
  | spaces => 112
  | newline => 113
  | lineComment => 114
  | blockComment => 115
  | shebang => 116
  | unterminatedString => 240
  | unterminatedChar => 241
  | unterminatedBackQuote => 242
  | unterminatedTripleQuote => 243
  | unterminatedBlockComment => 244
  | unterminatedSymbol => 245
  | unterminatedEscapedIdent => 246
  | unknown => 247
  | endOfInput => 255

/-- Whether the lexeme is malformed. -/
def isMalformed (t : Tag) : Bool := 240 ≤ t.code && t.code < 255

/-- Whether the lexeme is blank space, a comment or the shebang line. -/
def isTrivia (t : Tag) : Bool := 112 ≤ t.code && t.code < 128

/-- The one text of a tag that has only one. -/
def fixedText? : Tag → Option Text
  | atSign => some ['@']
  | comma => some [',']
  | semicolon => some [';']
  | leftParen => some ['(']
  | rightParen => some [')']
  | leftBrace => some ['\x7b']
  | rightBrace => some ['\x7d']
  | leftBracket => some ['[']
  | rightBracket => some [']']
  | _ => none

/-- A tag in words. -/
def describe : Tag → String
  | ident => "identifier"
  | escapedIdent => "escaped identifier"
  | symbol => "symbol literal"
  | number => "numeric literal"
  | string => "string literal"
  | char => "character literal"
  | backQuote => "back-quoted string"
  | tripleQuote => "triple-quoted string"
  | operator => "operator"
  | atSign => "'@'"
  | comma => "','"
  | semicolon => "';'"
  | leftParen => "'('"
  | rightParen => "')'"
  | leftBrace => "'\x7b'"
  | rightBrace => "'\x7d'"
  | leftBracket => "'['"
  | rightBracket => "']'"
  | spaces => "spaces"
  | newline => "newline"
  | lineComment => "line comment"
  | blockComment => "block comment"
  | shebang => "shebang"
  | unterminatedString => "unterminated string"
  | unterminatedChar => "unterminated character literal"
  | unterminatedBackQuote => "unterminated back-quoted string"
  | unterminatedTripleQuote => "unterminated triple-quoted string"
  | unterminatedBlockComment => "unterminated block comment"
  | unterminatedSymbol => "unterminated symbol literal"
  | unterminatedEscapedIdent => "unterminated escaped identifier"
  | unknown => "unexpected character"
  | endOfInput => "end of input"

end Tag

end LesTokens
