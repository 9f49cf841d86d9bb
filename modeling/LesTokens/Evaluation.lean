/-
From lexemes to tokens: the kind and value of a lexeme, and the diagnostics of what is wrong with
it. A malformed lexeme gets the kind of the form it was meant to be, and the value of what there
is of it.
-/
import LesTokens.Escape
import LesTokens.Lexeme.Tag
import LesTokens.Number
import LesTokens.Token
import LesTokens.Token.Operator

namespace LesTokens

/-- What a lexeme evaluates to: a kind, a value and diagnostics. -/
structure Evaluation where
  kind : Kind
  value : Value
  diagnostics : List Diagnostic
  deriving DecidableEq, Repr

namespace Evaluation

/-- A part of a lexeme between two offsets; empty if it has no such part. -/
def part (t : Text) (start stop : Nat) : Text := (t.slice? start stop).getD []

/-- The decoded content of a one-line quoted form that stands at a span, and what is wrong with it:
first that it is not closed, if it is not, then its escapes. -/
def quotedContent (t : Text) (span : Span) (quote : Char) (closed : Bool) :
    Text × List Diagnostic :=
  let content := part t 1 (if closed then t.size - 1 else t.size)
  let unclosed := if closed then [] else [⟨span, .unterminatedString [quote]⟩]
  match unescape? content (span.start + 1) with
  | some (decoded, diagnostics) => (decoded, unclosed ++ diagnostics)
  | none => (content, unclosed)

/-- A string in quotes of one kind. -/
def quoted (kind : Kind) (t : Text) (span : Span) (quote : Char) (closed : Bool) : Evaluation :=
  let (decoded, diagnostics) := quotedContent t span quote closed
  ⟨kind, .string decoded, diagnostics⟩

/-- A character literal, which has to be one character. A literal that opens with two quotes has
none. -/
def character (t : Text) (span : Span) (closed : Bool) : Evaluation :=
  if ['\x27', '\x27'].isPrefixOf t then ⟨.char, .char '\x00', [⟨span, .characterCount 0⟩]⟩
  else
    let (decoded, diagnostics) := quotedContent t span '\x27' closed
    let count := if closed && decoded.length != 1 then
      [⟨span, .characterCount decoded.length⟩] else []
    ⟨.char, .char (decoded.headD '\x00'), diagnostics ++ count⟩

/-- A name after `width` characters `@`: quoted, or a bare run. -/
def escaped (kind : Kind) (t : Text) (width : Nat) (span : Span) (closed : Bool) : Evaluation :=
  let body := part t width t.size
  match body.head? with
  | some quote =>
    if quote = '\x60' || quote = '\x22' then
      let (name, diagnostics) := quotedContent body ⟨span.start + width, span.stop⟩ quote closed
      ⟨kind, .name name, diagnostics⟩
    else ⟨kind, .name body, []⟩
  | none => ⟨kind, .name body, []⟩

/-- A number; a malformed one counts as zero. -/
def number (t : Text) (span : Span) : Evaluation :=
  match readNumber t with
  | .ok value => ⟨.number, value, []⟩
  | .error error => ⟨.number, .integer .int32 0, [⟨span, .malformedNumber error⟩]⟩

/-- A string between three quotes, whose content is taken as it is. -/
def tripleQuoted (t : Text) (span : Span) (closed : Bool) : Evaluation :=
  let content := part t 3 (if closed then t.size - 3 else t.size)
  let delimiter := List.replicate 3 (if t.head? = some '\x27' then '\x27' else '\x22')
  ⟨.string, .string content, if closed then [] else [⟨span, .unterminatedString delimiter⟩]⟩

/-- An operator. -/
def operator (t : Text) : Evaluation :=
  let (kind, value) := classifyOperator t
  ⟨kind, value, []⟩

/-- A lexeme that stands at a span. -/
def ofLexeme (tag : Tag) (t : Text) (span : Span) : Evaluation :=
  match tag with
  | .leftParen => ⟨.leftParen, .absent, []⟩
  | .rightParen => ⟨.rightParen, .absent, []⟩
  | .leftBrace => ⟨.leftBrace, .absent, []⟩
  | .rightBrace => ⟨.rightBrace, .absent, []⟩
  | .leftBracket => ⟨.leftBracket, .absent, []⟩
  | .rightBracket => ⟨.rightBracket, .absent, []⟩
  | .comma => ⟨.comma, operatorName t, []⟩
  | .semicolon => ⟨.semicolon, operatorName t, []⟩
  | .atSign => ⟨.atSign, operatorName t, []⟩
  | .spaces => ⟨.spaces, .absent, []⟩
  | .newline => ⟨.newline, .absent, []⟩
  | .lineComment => ⟨.lineComment, .absent, []⟩
  | .blockComment => ⟨.blockComment, .absent, []⟩
  | .unterminatedBlockComment => ⟨.blockComment, .absent, [⟨span, .unterminatedComment⟩]⟩
  | .shebang => ⟨.shebang, .absent, []⟩
  | .ident => ⟨.ident, .name t, []⟩
  | .escapedIdent => escaped .ident t 1 span true
  | .unterminatedEscapedIdent => escaped .ident t 1 span false
  | .symbol => escaped .symbol t 2 span true
  | .unterminatedSymbol => escaped .symbol t 2 span false
  | .operator => operator t
  | .number => number t span
  | .string => quoted .string t span '\x22' true
  | .unterminatedString => quoted .string t span '\x22' false
  | .backQuote => quoted .backQuoted t span '\x60' true
  | .unterminatedBackQuote => quoted .backQuoted t span '\x60' false
  | .tripleQuote => tripleQuoted t span true
  | .unterminatedTripleQuote => tripleQuoted t span false
  | .char => character t span true
  | .unterminatedChar => character t span false
  | .unknown =>
    ⟨.operator, operatorName t, [⟨span, .unexpectedCharacter (t.headD '\x00')⟩]⟩
  | .endOfInput => ⟨.spaces, .absent, []⟩

/-- The token of an evaluation at a span. -/
def token (e : Evaluation) (span : Span) : Token := ⟨e.kind, span, e.value⟩

end Evaluation

end LesTokens
