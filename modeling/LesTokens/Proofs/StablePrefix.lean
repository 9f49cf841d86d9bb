/-
What more text can change. Behind a lexeme that two others follow there are at least two
characters, and no lexeme looks further: so text added to a source changes its last two lexemes at
most (**`Text.extents_stable`**).
-/
import LesTokens.Proofs.Context
import LesTokens.Proofs.Stream

namespace LesTokens.Text

/-- A lexeme with two characters behind it stays as it is, and the rest is scanned behind it. -/
theorem lexemesAfter_cons_append {before : Option Char} {c : Char} {t r : Text} {l : Lexeme}
    (h : Lexeme.scan before c t = (l, r)) (hr : 2 ≤ r.length) (b : Text) :
    lexemesAfter before (c :: t ++ b) = l :: lexemesAfter l.text.getLast? (r ++ b) :=
  lexemesAfter_cons (Lexeme.scan_append h (.more hr b))

theorem dropLast_dropLast_cons {α : Type} (x : α) {xs : List α} (h : 2 ≤ xs.length) :
    (x :: xs).dropLast.dropLast = x :: xs.dropLast.dropLast := by
  match xs, h with
  | y :: z :: xs, _ => rfl

theorem lexemesAfter_stable (before : Option Char) (a b : Text) :
    (a.lexemesAfter before).dropLast.dropLast <+: (a ++ b).lexemesAfter before := by
  induction before, a using lexing_induct with
  | nil before => simp [lexemesAfter_nil]
  | step before c t l r h ih =>
    rw [lexemesAfter_cons h]
    by_cases hlen : 2 ≤ (r.lexemesAfter l.text.getLast?).length
    · have hr : 2 ≤ r.length := Nat.le_trans hlen (length_lexemesAfter_le _ r)
      rw [lexemesAfter_cons_append h hr, dropLast_dropLast_cons l hlen]
      exact (List.prefix_cons_inj l).2 ih
    · have hnil : (l :: r.lexemesAfter l.text.getLast?).dropLast.dropLast = [] := by
        refine List.eq_nil_of_length_eq_zero ?_
        simp only [List.length_dropLast, List.length_cons]
        omega
      rw [hnil]
      exact List.nil_prefix

/-- **Text added to a source changes its last two lexemes at most.** -/
theorem extents_stable (a b : Text) : a.extents.dropLast.dropLast <+: (a ++ b).extents := by
  have h := (lexemesAfter_stable none a b).map Lexeme.extent
  rwa [List.map_dropLast, List.map_dropLast] at h

/-- Two lexemes do change: a number and a point, before more digits. -/
example : ¬(extents ['1', '.']).dropLast <+: extents ['1', '.', '5'] := by decide +kernel

end LesTokens.Text
