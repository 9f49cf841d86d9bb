/-
Sets of code points as ascending lists of inclusive ranges, the form in which Unicode
publishes its properties. `Ranges.contains` stops at the first range that lies above the code
point it looks for, so it is right only for lists in ascending order.
-/

namespace LesTokens.Unicode

/-- Inclusive ranges of code points, in ascending order. -/
abbrev Ranges := List (Nat × Nat)

/-- Whether a code point lies in one of the ranges. -/
def Ranges.contains : Ranges → Nat → Bool
  | [], _ => false
  | (low, high) :: rest, n => low ≤ n && (n ≤ high || Ranges.contains rest n)

end LesTokens.Unicode
