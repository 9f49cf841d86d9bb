/-
The escapes of quoted forms. A content is read from left to right as units: an ordinary character,
a backslash with the character it stands for, a backslash with a code point, or a backslash that
starts no escape. The last kind is kept as it is written, and reported.
-/
import LesTokens.Diagnostic

namespace LesTokens

/-- The character that a backslash and a letter stand for. -/
def simpleEscape? : Char → Option Char
  | 'a' => some '\x07'
  | 'b' => some '\x08'
  | 'f' => some '\x0c'
  | 'v' => some '\x0b'
  | 'n' => some '\n'
  | 'r' => some '\r'
  | 't' => some '\t'
  | '0' => some '\x00'
  | '\\' => some '\\'
  | '\x27' => some '\x27'
  | '\x22' => some '\x22'
  | '\x60' => some '\x60'
  | _ => none

/-- The number of hexadecimal digits after a backslash and a letter. -/
def codePointWidth? : Char → Option Nat
  | 'u' => some 4
  | 'U' => some 8
  | _ => none

/-- The character with a code point, if there is one. -/
def charOfCodePoint? (n : Nat) : Option Char :=
  if h : n.isValidChar then some (Char.ofNatAux n h) else none

/-- The character that `width` hexadecimal digits at the front of a text name. -/
def codePoint? (width : Nat) (t : Text) : Option Char :=
  let digits := t.take width
  if digits.length = width && digits.all (Base.isDigit .hexadecimal) then
    charOfCodePoint? (valueOfDigits 16 (digitValues digits))
  else none

/-- The hexadecimal digits at the front of a text, at most `width` of them. -/
def presentDigits (width : Nat) (t : Text) : Text :=
  (t.take width).takeWhile (Base.isDigit .hexadecimal)

/-- A unit of a content: its text as written, and the character it stands for unless it is
invalid. -/
structure EscapeUnit where
  text : Text
  char : Option Char
  deriving DecidableEq, Repr

namespace EscapeUnit

/-- What the unit stands for; an invalid unit stands for itself. -/
def decoded (u : EscapeUnit) : Text :=
  match u.char with
  | some c => [c]
  | none => u.text

/-- The unit at the front of `c :: t`. -/
def first (c : Char) (t : Text) : EscapeUnit :=
  if c ≠ '\\' then ⟨[c], some c⟩
  else match t with
    | [] => ⟨[c], none⟩
    | letter :: t =>
      match simpleEscape? letter, codePointWidth? letter with
      | some decoded, _ => ⟨[c, letter], some decoded⟩
      | none, some width =>
        match codePoint? width t with
        | some decoded => ⟨c :: letter :: t.take width, some decoded⟩
        | none => ⟨c :: letter :: presentDigits width t, none⟩
      | none, none => ⟨[c, letter], none⟩

theorem text_first_ne_nil (c : Char) (t : Text) : (first c t).text ≠ [] := by
  unfold first
  repeat' split
  all_goals simp

/-- The units of a content. -/
def units : Text → List EscapeUnit
  | [] => []
  | c :: t =>
    let u := first c t
    u :: units ((c :: t).drop u.text.length)
termination_by t => t.length
decreasing_by
  have := List.length_pos_iff.2 (text_first_ne_nil c t)
  simp only [List.length_drop, List.length_cons]
  omega

end EscapeUnit

/-- The diagnostics of invalid units, the first of which stands at an offset. -/
def escapeDiagnostics (offset : Nat) : List EscapeUnit → List Diagnostic
  | [] => []
  | u :: units =>
    let rest := escapeDiagnostics (offset + u.text.size) units
    match u.char with
    | some _ => rest
    | none => ⟨.ofLength offset u.text.size, .unrecognizedEscape u.text⟩ :: rest

/-- A content with its escapes decoded, and what is wrong with them; none if it has no backslash.
The content stands at `offset` in the source. -/
def unescape? (content : Text) (offset : Nat) : Option (Text × List Diagnostic) :=
  if content.contains '\\' then
    let units := EscapeUnit.units content
    some (units.flatMap EscapeUnit.decoded, escapeDiagnostics offset units)
  else none

end LesTokens
