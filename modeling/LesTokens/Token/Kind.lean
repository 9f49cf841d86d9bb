/-
The kinds of token, and the values that a token of each kind carries.
-/
import LesTokens.Token.Value

namespace LesTokens

/-- The kind of a token. -/
inductive Kind where
  | ident
  | number
  | string
  | char
  | backQuoted
  | symbol
  /-- An operator of no more special kind. -/
  | operator
  /-- An operator that starts with two backslashes. -/
  | suffixOperator
  /-- An operator that ends in `=` and is no comparison. -/
  | assignment
  | colon
  | comma
  | dot
  | semicolon
  | leftParen
  | rightParen
  | leftBrace
  | rightBrace
  | leftBracket
  | rightBracket
  | atSign
  | spaces
  | newline
  | lineComment
  | blockComment
  | shebang
  deriving DecidableEq, Repr

namespace Kind

/-- Whether a token of the kind may carry a value. -/
def accepts : Kind → Value → Bool
  | ident, v | symbol, v | operator, v | suffixOperator, v | assignment, v | colon, v | comma, v
  | dot, v | semicolon, v | atSign, v => v.name?.isSome
  | number, v => v.isNumeric
  | string, v | backQuoted, v => v.string?.isSome
  | char, .char _ => true
  | char, _ => false
  | leftParen, v | rightParen, v | leftBrace, v | rightBrace, v | leftBracket, v | rightBracket, v
  | spaces, v | newline, v | lineComment, v | blockComment, v | shebang, v => v = .absent

/-- Whether a parser may skip tokens of the kind. -/
def isTrivia : Kind → Bool
  | spaces | newline | lineComment | blockComment | shebang => true
  | _ => false

/-- A kind in words. -/
def describe : Kind → String
  | ident => "identifier"
  | number => "number"
  | string => "string"
  | char => "character literal"
  | backQuoted => "back-quoted string"
  | symbol => "symbol"
  | operator => "operator"
  | suffixOperator => "suffix operator"
  | assignment => "assignment"
  | colon => ":"
  | comma => ","
  | dot => "."
  | semicolon => ";"
  | leftParen => "("
  | rightParen => ")"
  | leftBrace => "\x7b"
  | rightBrace => "\x7d"
  | leftBracket => "["
  | rightBracket => "]"
  | atSign => "@"
  | spaces => "spaces"
  | newline => "newline"
  | lineComment => "line comment"
  | blockComment => "block comment"
  | shebang => "shebang"

/-- The name of a kind in listings. -/
def label : Kind → String
  | ident => "Id"
  | number => "Number"
  | string => "String"
  | char => "CharLiteral"
  | backQuoted => "BackQuotedString"
  | symbol => "Symbol"
  | operator => "NormalOp"
  | suffixOperator => "SuffixOp"
  | assignment => "Assignment"
  | colon => "Colon"
  | comma => "Comma"
  | dot => "Dot"
  | semicolon => "Semicolon"
  | leftParen => "LParen"
  | rightParen => "RParen"
  | leftBrace => "LBrace"
  | rightBrace => "RBrace"
  | leftBracket => "LBrack"
  | rightBracket => "RBrack"
  | atSign => "At"
  | spaces => "Spaces"
  | newline => "Newline"
  | lineComment => "LineComment"
  | blockComment => "BlockComment"
  | shebang => "Shebang"

end Kind

end LesTokens
