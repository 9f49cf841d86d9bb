/-
Lines and columns, as shown to people: both count from one, a line ends at `\n` alone, and a
column counts scalars.
-/
import LesTokens.Text

namespace LesTokens

/-- A place in a text as a line and a column. -/
structure Position where
  line : Nat
  column : Nat
  deriving DecidableEq, Repr

namespace Position

/-- The position just after a text. -/
def after (before : Text) : Position where
  line := before.count '\n' + 1
  column := (before.reverse.takeWhile (· ≠ '\n')).length + 1

/-- The position of a byte offset. An offset inside a scalar or past the end counts as the end of
the text. -/
def ofOffset (source : Text) (offset : Nat) : Position :=
  match Text.splitAt? offset source with
  | some (before, _) => after before
  | none => after source

end Position

end LesTokens
