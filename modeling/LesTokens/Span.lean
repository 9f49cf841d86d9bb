/-
Half-open ranges of byte offsets.
-/

namespace LesTokens

/-- The bytes from `start` up to, not including, `stop`. -/
structure Span where
  start : Nat
  stop : Nat
  deriving DecidableEq, Repr

namespace Span

/-- The span of `length` bytes from `start` on. -/
def ofLength (start length : Nat) : Span := ⟨start, start + length⟩

/-- The number of bytes. -/
def length (s : Span) : Nat := s.stop - s.start

def isEmpty (s : Span) : Bool := s.start = s.stop

/-- The span the same distance further on. -/
def shift (s : Span) (distance : Nat) : Span := ⟨s.start + distance, s.stop + distance⟩

/-- A span as `start..stop`. -/
def render (s : Span) : String := toString s.start ++ ".." ++ toString s.stop

end Span

end LesTokens
