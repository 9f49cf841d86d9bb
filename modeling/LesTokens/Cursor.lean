/-
A cursor over the bytes of a text. Reading past the end gives zero, so a reader can look ahead
without asking first; `isAtEnd` tells a zero in the text from the end.

The position may be moved anywhere, also inside a character or past the end. From there the
cursor sees no text at all, so that a search finds nothing and leaves it at the end of the source.
-/
import LesTokens.Text.Search
import LesTokens.CharClass

namespace LesTokens

structure Cursor where
  source : Text
  position : Nat
  deriving DecidableEq, Repr

namespace Cursor

/-- The cursor at the start of a text. -/
def ofText (source : Text) : Cursor := ⟨source, 0⟩

/-! ## Looking -/

/-- The byte `n` places ahead. -/
def peek (c : Cursor) (n : Nat) : UInt8 := (c.source.bytes[c.position + n]?).getD 0

/-- The byte at the position. -/
def current (c : Cursor) : UInt8 := c.peek 0

/-- The byte before the position. -/
def previous (c : Cursor) : UInt8 :=
  match c.position with
  | 0 => 0
  | p + 1 => (c.source.bytes[p]?).getD 0

/-- The text from the position on; empty inside a character and past the end. -/
def rest (c : Cursor) : Text := c.source.dropBytes c.position

/-- The character at the position, U+0000 without one. -/
def currentChar (c : Cursor) : Char := c.rest.headD '\x00'

def isAtEnd (c : Cursor) : Bool := c.source.size ≤ c.position

/-- The text between two offsets; empty unless both lie between characters. -/
def slice (c : Cursor) (start stop : Nat) : Text := (c.source.slice? start stop).getD []

/-- The text from an offset to the position. -/
def sliceFrom (c : Cursor) (start : Nat) : Text := c.slice start c.position

/-! ## Moving -/

def advance (c : Cursor) (n : Nat) : Cursor := { c with position := c.position + n }

/-- Passes one character, or one byte where there is none. -/
def advanceChar (c : Cursor) : Cursor :=
  c.advance (match c.rest.head? with
    | some ch => ch.utf8Size
    | none => 1)

/-- Goes to the end of the source. -/
def toEnd (c : Cursor) : Cursor := { c with position := c.source.size }

/-- Passes the bytes of a class. -/
def skipWhile (c : Cursor) (p : UInt8 → Bool) : Cursor :=
  c.advance ((c.source.bytes.drop c.position).takeWhile p).length

/-- Goes to the place found in the text from the position on, or to the end of the source. -/
def seek (c : Cursor) (found : Option Nat) : Cursor :=
  match found with
  | some n => c.advance n
  | none => c.toEnd

/-- Goes to the end of the line, before its ending. -/
def skipLine (c : Cursor) : Cursor :=
  c.seek (c.rest.bytes.findIdx? fun b => b = 0x0A || b = 0x0D)

/-- The earlier of two places. -/
def earliest : Option Nat → Option Nat → Option Nat
  | some m, some n => some (min m n)
  | some m, none => some m
  | none, n => n

/-- Goes to the next byte that an ordinary character of a quoted form cannot be: the quote, a
backslash or the end of the line. The answer is that byte, or zero at the end of the source. -/
def skipToQuote (c : Cursor) (quote : UInt8) : UInt8 × Cursor :=
  let bytes := c.rest.bytes
  let stop := bytes.findIdx? fun b => b = quote || b = 0x5C || b = 0x0A
  let carriageReturn := bytes.findIdx? (· = 0x0D)
  match earliest stop carriageReturn with
  | some n => let c := c.advance n; (c.current, c)
  | none => (0, c.toEnd)

/-- Where the search answers with a byte other than zero, it has found that byte in the source, no
earlier than where it started. -/
theorem skipToQuote_spec {c stop : Cursor} {quote b : UInt8} (h : c.skipToQuote quote = (b, stop))
    (hb : b ≠ 0) : stop.source = c.source ∧ c.position ≤ stop.position ∧
      stop.position < c.source.bytes.length := by
  unfold skipToQuote at h
  dsimp only at h
  split at h
  · rename_i n _
    simp only [Prod.mk.injEq] at h
    obtain ⟨hcurrent, rfl⟩ := h
    refine ⟨rfl, Nat.le_add_right _ n, ?_⟩
    -- Past the end the byte would be zero.
    by_cases hlt : c.position + n < c.source.bytes.length
    · exact hlt
    · have hnone : c.source.bytes[c.position + n]? = none :=
        List.getElem?_eq_none_iff.2 (Nat.le_of_not_lt hlt)
      simp only [current, peek, advance, Nat.add_zero, hnone, Option.getD_none] at hcurrent
      exact absurd hcurrent.symm hb
  · simp only [Prod.mk.injEq] at h
    exact absurd h.1.symm hb

/-- Passes the body of a quoted form on one line, and the quote that closes it. A backslash takes
the next character with it unless that ends the line. Without a closing quote the cursor goes to the
end of the line, or of the source, and the answer is false. -/
def skipQuoted (c : Cursor) (quote : UInt8) : Bool × Cursor :=
  match _h : c.skipToQuote quote with
  | (b, stop) =>
    if b = 0x5C then
      let next := stop.advance 1
      if ByteClass.lineEnd.holds next.current || next.isAtEnd then next.skipQuoted quote
      else next.advanceChar.skipQuoted quote
    else if b = quote then (true, stop.advance 1)
    else (false, stop)
termination_by c.source.bytes.length - c.position
decreasing_by
  all_goals
    rename_i hb _
    obtain ⟨hsource, hle, hlt⟩ := skipToQuote_spec _h (by rw [hb]; decide)
    simp only [advanceChar, advance, hsource]
    omega

/-- Passes the next occurrence of a text. Without one the cursor goes to the end of the source and
the answer is false. -/
def skipThrough (c : Cursor) (needle : Text) : Bool × Cursor :=
  match Text.occurrence? needle.bytes c.rest.bytes with
  | some n => (true, c.advance (n + needle.size))
  | none => (false, c.toEnd)

end Cursor

end LesTokens
