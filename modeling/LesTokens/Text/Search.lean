/-
The first occurrence of one list in another, and the split of a text right after it.

`splitAfter?_append`: nothing is lost in the split.
-/
import LesTokens.Text

namespace LesTokens.Text

/-- The index at which `needle` first occurs, counted on from `index`. -/
def occurrenceFrom? {α : Type} [BEq α] (needle : List α) (index : Nat) : List α → Option Nat
  | [] => if needle.isEmpty then some index else none
  | x :: xs =>
    if needle.isPrefixOf (x :: xs) then some index else occurrenceFrom? needle (index + 1) xs

/-- The index at which `needle` first occurs. -/
def occurrence? {α : Type} [BEq α] (needle xs : List α) : Option Nat := occurrenceFrom? needle 0 xs

/-- A text split right after the first occurrence of `needle`. -/
def splitAfter? (needle t : Text) : Option (Text × Text) :=
  (occurrence? needle t).map fun i => t.splitAt (i + needle.length)

theorem splitAfter?_append {needle t a b : Text} (h : splitAfter? needle t = some (a, b)) :
    a ++ b = t := by
  simp only [splitAfter?, Option.map_eq_some_iff, List.splitAt_eq, Prod.mk.injEq] at h
  obtain ⟨i, _, rfl, rfl⟩ := h
  exact List.take_append_drop _ _

end LesTokens.Text
