/-
Decoding the escapes of a content in one pass over its characters and their offsets. A code point is
looked for among the bytes behind its letter, and the characters it takes are counted off.

`EscapePass.unescape` adds what it reports to what is reported already, and decodes what `unescape?`
decodes.
-/
import LesTokens.CharClass
import LesTokens.Escape

namespace LesTokens

/-- The characters of a text and their offsets, the first of which is `offset`. -/
def Text.indexed (offset : Nat) : Text → List (Nat × Char)
  | [] => []
  | c :: t => (offset, c) :: indexed (offset + c.utf8Size) t

/-- What a pass has decoded, and all that is reported. -/
structure EscapePass where
  text : Text
  reported : List Diagnostic
  deriving DecidableEq, Repr

namespace EscapePass

/-- Adds a character that an escape stands for, or that stands for itself. -/
def push (p : EscapePass) (c : Char) : EscapePass := { p with text := p.text ++ [c] }

/-- Keeps an invalid escape as it is written and reports it. -/
def keep (p : EscapePass) (span : Span) (escape : Text) : EscapePass :=
  ⟨p.text ++ escape, p.reported ++ [⟨span, .unrecognizedEscape escape⟩]⟩

def isHexByte (b : UInt8) : Bool := (ByteClass.digit .hexadecimal).holds b

/-- The character that the `width` bytes from a place of a content on name. -/
def codePointAt? (content : Text) (place width : Nat) : Option Char :=
  match content.slice? place (place + width) with
  | some digits =>
    if digits.bytes.all isHexByte then charOfCodePoint? (valueOfDigits 16 (digitValues digits))
    else none
  | none => none

/-- The number of hexadecimal digits from a place of a content on, counted up to `width`. -/
def digitsAt (content : Text) (place width : Nat) : Nat :=
  (((content.dropBytes place).bytes.take width).takeWhile isHexByte).length

/-- Reads on with the characters that are left. The content stands at `offset` in the source. -/
def run (content : Text) (offset : Nat) : List (Nat × Char) → EscapePass → EscapePass
  | [], p => p
  | (i, c) :: left, p =>
    if c ≠ '\\' then run content offset left (p.push c)
    else match left with
      | [] => p.keep (.ofLength (offset + i) 1) ['\\']
      | (j, letter) :: after =>
        match simpleEscape? letter, codePointWidth? letter with
        | some decoded, _ => run content offset after (p.push decoded)
        | none, some width =>
          match codePointAt? content (i + 2) width with
          | some decoded =>
            run content offset (((j, letter) :: after).drop (width + 1)) (p.push decoded)
          | none =>
            let present := digitsAt content (i + 2) width
            let escape := (content.slice? i (i + 2 + present)).getD ['\\', 'u']
            run content offset (((j, letter) :: after).drop (present + 1))
              (p.keep (.ofLength (offset + i) (2 + present)) escape)
        | none, none =>
          run content offset after
            (p.keep (.ofLength (offset + i) (1 + letter.utf8Size)) ['\\', letter])
termination_by left => left.length

/-- A content with its escapes decoded, none if it has no backslash, and all that is reported. -/
def unescape (content : Text) (offset : Nat) (reported : List Diagnostic) :
    Option Text × List Diagnostic :=
  if content.contains '\\' then
    let p := run content offset (content.indexed 0) ⟨[], reported⟩
    (some p.text, p.reported)
  else (none, reported)

end EscapePass

end LesTokens
