/-
Runs of characters, as one loop. Each run of the grammar takes characters as long as the text from
each of them on meets a condition, which may look at the character after it: `Text.spanBy` is
that loop, and the runs of digits, of operator characters and of escaped names are three of its
conditions. A run of a class alone is `List.takeWhile` with `List.dropWhile`.
-/
import LesTokens.Lexeme.Segments

namespace LesTokens

/-- Whether a text opens with two characters, one of each class. -/
def opensPair (p q : Char → Bool) : Text → Bool
  | [] => false
  | c :: t => p c && opensWith q t

theorem opensComment_eq : ∀ t : Text,
    opensComment t = opensPair (· = '/') (fun c => c = '/' || c = '*') t
  | [] => rfl
  | [c] => by by_cases hc : c = '/' <;> simp [opensComment, opensPair, opensWith]
  | c :: d :: t => by by_cases hc : c = '/' <;> simp [opensComment, opensPair, opensWith, hc]

theorem opensFraction_eq : ∀ t : Text, opensFraction t = opensPair (· = '.') Char.isDigit t
  | [] => rfl
  | [c] => by by_cases hc : c = '.' <;> simp [opensFraction, opensPair, opensWith]
  | c :: d :: t => by by_cases hc : c = '.' <;> simp [opensFraction, opensPair, opensWith, hc]

theorem opensPair_of_not_opensWith {p q : Char → Bool} {t : Text} (h : opensWith p t = false) :
    opensPair p q t = false := by
  cases t with
  | nil => rfl
  | cons c t => simp [opensPair, show p c = false from h]

theorem opensWith_append {p : Char → Bool} {t : Text} (h : opensWith p t = true) (b : Text) :
    opensWith p (t ++ b) = true := by
  cases t with
  | nil => simp [opensWith] at h
  | cons c t => exact h

theorem opensPair_append {p q : Char → Bool} {t : Text} (h : opensPair p q t = true) (b : Text) :
    opensPair p q (t ++ b) = true := by
  cases t with
  | nil => simp [opensPair] at h
  | cons c t =>
    simp only [opensPair, Bool.and_eq_true] at h
    simp only [List.cons_append, opensPair, Bool.and_eq_true]
    exact ⟨h.1, opensWith_append h.2 b⟩

theorem exists_of_opensPair {p q : Char → Bool} : ∀ {t : Text}, opensPair p q t = true →
    ∃ c d s, t = c :: d :: s ∧ p c = true ∧ q d = true
  | [], h => by simp [opensPair] at h
  | [c], h => by simp [opensPair, opensWith] at h
  | c :: d :: s, h => by
    simp only [opensPair, opensWith, Bool.and_eq_true] at h
    exact ⟨c, d, s, rfl, h.1, h.2⟩

/-! ## Runs of a class -/

theorem dropWhile_eq_self_iff_opensWith {p : Char → Bool} {t : Text} :
    t.dropWhile p = t ↔ opensWith p t = false := by
  cases t with
  | nil => simp [opensWith]
  | cons c t =>
    rw [List.dropWhile_cons, opensWith_cons]
    split
    · rename_i hc
      have hle := (List.dropWhile_suffix (l := t) p).length_le
      refine iff_of_false (fun h => ?_) (by simp [hc])
      rw [h, List.length_cons] at hle
      omega
    · rename_i hc
      simpa using hc

theorem takeWhile_eq_of_dropWhile {p : Char → Bool} {u r : Text} (h : (u ++ r).dropWhile p = r) :
    (u ++ r).takeWhile p = u := by
  have hs := List.takeWhile_append_dropWhile (p := p) (l := u ++ r)
  rw [h] at hs
  exact List.append_cancel_right hs

theorem takeWhile_of_not_opensWith {p : Char → Bool} {t : Text} (h : opensWith p t = false) :
    t.takeWhile p = [] ∧ t.dropWhile p = t := by
  have hdrop : ([] ++ t).dropWhile p = t := dropWhile_eq_self_iff_opensWith.2 h
  exact ⟨takeWhile_eq_of_dropWhile hdrop, hdrop⟩

theorem dropWhile_append_eq_iff {p : Char → Bool} {u r : Text} :
    (u ++ r).dropWhile p = r ↔ (∀ c ∈ u, p c = true) ∧ opensWith p r = false := by
  constructor
  · intro h
    have hu : ∀ c ∈ u, p c = true := by
      rw [← takeWhile_eq_of_dropWhile h]
      exact List.all_eq_true.1 List.all_takeWhile
    rw [List.dropWhile_append_of_pos hu, dropWhile_eq_self_iff_opensWith] at h
    exact ⟨hu, h⟩
  · rintro ⟨hu, hr⟩
    rw [List.dropWhile_append_of_pos hu, dropWhile_eq_self_iff_opensWith]
    exact hr

theorem opensWith_dropWhile (p : Char → Bool) (t : Text) : opensWith p (t.dropWhile p) = false := by
  induction t with
  | nil => rfl
  | cons c t ih =>
    rw [List.dropWhile_cons]
    split
    · exact ih
    · rename_i hc
      simpa [opensWith] using hc

/-! ## Runs of a condition -/

/-- The characters at the front of a text as long as the text from each of them on meets a
condition, and what follows them. -/
def Text.spanBy (q : Text → Bool) : Text → Text × Text
  | [] => ([], [])
  | c :: t =>
    if q (c :: t) then
      let (taken, rest) := spanBy q t
      (c :: taken, rest)
    else ([], c :: t)

namespace Text

theorem spanBy_stop {q : Text → Bool} {t : Text} (h : q t = false) : spanBy q t = ([], t) := by
  cases t with
  | nil => rfl
  | cons c t => simp [spanBy, h]

theorem spanBy_eq_nil_iff {q : Text → Bool} (hq : q [] = false) {t : Text} :
    spanBy q t = ([], t) ↔ q t = false := by
  refine ⟨fun h => ?_, spanBy_stop⟩
  cases t with
  | nil => exact hq
  | cons c t =>
    rw [Bool.eq_false_iff]
    intro hc
    simp [spanBy, hc] at h

theorem spanBy_cons_append {q : Text → Bool} {c : Char} {u r : Text} :
    spanBy q (c :: (u ++ r)) = (c :: u, r) ↔
      q (c :: (u ++ r)) = true ∧ spanBy q (u ++ r) = (u, r) := by
  rw [spanBy]
  split
  · rename_i h
    simp [h, Prod.ext_iff]
  · rename_i h
    simp [h]

theorem forall_mem_spanBy {q : Text → Bool} {p : Char → Bool}
    (hq : ∀ c t, q (c :: t) = true → p c = true) (t : Text) : ∀ c ∈ (spanBy q t).1, p c = true := by
  induction t with
  | nil => simp [spanBy]
  | cons c t ih =>
    rw [spanBy]
    split
    · rename_i h
      intro d hd
      rcases List.mem_cons.1 hd with rfl | hd
      · exact hq d t h
      · exact ih d hd
    · simp

theorem spanBy_rest {q : Text → Bool} {u r : Text} (h : spanBy q (u ++ r) = (u, r)) :
    spanBy q r = ([], r) := by
  induction u with
  | nil => exact h
  | cons c u ih => exact ih (spanBy_cons_append.1 h).2

/-- What a run takes before a rest it takes before another one, if it goes on before it where it
went on, and does not start at it. -/
theorem spanBy_replace {q : Text → Bool} {u r r' : Text}
    (hgo : ∀ c w, q (c :: (w ++ r)) = true → q (c :: (w ++ r')) = true) (hstop : q r' = false)
    (h : spanBy q (u ++ r) = (u, r)) : spanBy q (u ++ r') = (u, r') := by
  induction u with
  | nil => exact spanBy_stop hstop
  | cons c u ih =>
    obtain ⟨hc, hu⟩ := spanBy_cons_append.1 h
    exact spanBy_cons_append.2 ⟨hgo c u hc, ih hu⟩

end Text

/-- Whether an operator goes on. -/
def opensOperatorTail (t : Text) : Bool :=
  opensWith isOperatorChar t && !opensComment t && !opensFraction t

/-- Whether an escaped run goes on. -/
def opensEscapeRun (t : Text) : Bool := opensWith isEscapeRunChar t && !opensComment t

/-- Whether digits of a base go on, perhaps after a separator. -/
def opensDigitRun (base : Base) (t : Text) : Bool :=
  opensWith base.isDigit t || opensPair (· = '_') base.isDigit t

theorem operatorTail_eq_spanBy (t : Text) : operatorTail t = t.spanBy opensOperatorTail := by
  induction t with
  | nil => rfl
  | cons c t ih =>
    rw [operatorTail, Text.spanBy, ih]
    rfl

theorem escapeRunTail_eq_spanBy (t : Text) : escapeRunTail t = t.spanBy opensEscapeRun := by
  induction t with
  | nil => rfl
  | cons c t ih =>
    rw [escapeRunTail, Text.spanBy, ih]
    rfl

theorem digitRun_eq_spanBy (base : Base) (t : Text) :
    digitRun base t = t.spanBy (opensDigitRun base) := by
  induction t with
  | nil => rfl
  | cons c t ih =>
    rw [digitRun, Text.spanBy, ih]
    rfl

theorem opensDigitRun_rest {base : Base} {t u r : Text} (h : digitRun base t = (u, r)) :
    opensDigitRun base r = false := by
  have ht : u ++ r = t := by simpa [h] using digitRun_append base t
  rw [digitRun_eq_spanBy, ← ht] at h
  exact (Text.spanBy_eq_nil_iff rfl).1 (Text.spanBy_rest h)

end LesTokens
