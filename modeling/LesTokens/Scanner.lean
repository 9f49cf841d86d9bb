/-
Scanning a whole text, lexeme by lexeme.

A `Scanner` stands between two characters of a text. A `ByteScanner` may also start inside a
character: the bytes left of it come out one by one as unknown, and from the next character on it
scans like any other.
-/
import LesTokens.Lexeme

namespace LesTokens

/-- A place in a text to scan from: its offset, the character before it and the text after it. -/
structure Scanner where
  position : Nat
  before : Option Char
  rest : Text
  deriving DecidableEq, Repr

namespace Scanner

/-- The start of a text. -/
def ofText (t : Text) : Scanner := ⟨0, none, t⟩

/-- The place between two parts of a text. -/
def between (before after : Text) : Scanner := ⟨before.size, before.getLast?, after⟩

/-- The next lexeme and the place after it; none at the end of the text. -/
def next? (s : Scanner) : Option (Lexeme × Scanner) :=
  match s.rest with
  | [] => none
  | c :: t =>
    let (lexeme, rest) := Lexeme.scan s.before c t
    some (lexeme, ⟨s.position + lexeme.text.size, lexeme.text.getLast?, rest⟩)

theorem length_rest_lt {s s' : Scanner} {l : Lexeme} (h : s.next? = some (l, s')) :
    s'.rest.length < s.rest.length := by
  unfold next? at h
  split at h
  · simp at h
  · rename_i c t hr
    simp only [Option.some.injEq, Prod.mk.injEq] at h
    obtain ⟨_, rfl⟩ := h
    rw [hr]
    exact (Lexeme.scan_splits s.before c t).length_lt

/-- All lexemes from a place to the end of the text. -/
def lexemes (s : Scanner) : List Lexeme :=
  match _h : s.next? with
  | none => []
  | some (l, s') => l :: s'.lexemes
termination_by s.rest.length
decreasing_by exact length_rest_lt _h

end Scanner

/-- The lexemes of a text. -/
def Text.lexemes (t : Text) : List Lexeme := (Scanner.ofText t).lexemes

/-! ## Extents -/

/-- A tag and a length in bytes. -/
structure Extent where
  tag : Tag
  length : Nat
  deriving DecidableEq, Repr

def Lexeme.extent (l : Lexeme) : Extent := ⟨l.tag, l.text.size⟩

/-- The extents of the lexemes of a text. -/
def Text.extents (t : Text) : List Extent := t.lexemes.map Lexeme.extent

/-! ## Starting at any byte -/

/-- A scanner that has `stray` bytes of a character to pass before it. -/
structure ByteScanner where
  stray : Nat
  scanner : Scanner
  deriving DecidableEq, Repr

namespace ByteScanner

/-- The offset of the next byte. -/
def position (s : ByteScanner) : Nat := s.scanner.position - s.stray

/-- The scanner that has `offset` bytes of a text to go before it starts; `before` is the
character before the text, `passed` the bytes already passed. -/
def startFrom (passed : Nat) (before : Option Char) : Text → Nat → ByteScanner
  | [], offset => ⟨0, passed + offset, before, []⟩
  | c :: t, 0 => ⟨0, passed, before, c :: t⟩
  | c :: t, offset + 1 =>
    if c.utf8Size ≤ offset + 1 then
      startFrom (passed + c.utf8Size) (some c) t (offset + 1 - c.utf8Size)
    else ⟨c.utf8Size - (offset + 1), passed + c.utf8Size, some c, t⟩

/-- The scanner that starts at a byte offset of a text. -/
def start (t : Text) (offset : Nat) : ByteScanner := startFrom 0 none t offset

/-- The next extent and the scanner after it. At the end of the input, and past it, this is the
end-of-input tag with no bytes, and the scanner stays where it is. -/
def next (s : ByteScanner) : Extent × ByteScanner :=
  match s.stray with
  | stray + 1 => (⟨.unknown, 1⟩, { s with stray := stray })
  | 0 =>
    match s.scanner.next? with
    | some (l, scanner) => (l.extent, ⟨0, scanner⟩)
    | none => (⟨.endOfInput, 0⟩, s)

end ByteScanner

end LesTokens
