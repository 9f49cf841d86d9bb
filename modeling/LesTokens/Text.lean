/-
Text as its scalars, with positions counted in UTF-8 bytes.

`Text.splitAt?` is the only way from a byte offset to a place in a text: it answers exactly for
the offsets that lie between two scalars or at an end (`splitAt?_size_append`,
`append_of_splitAt?`), so a slice with an end inside a scalar is refused, not mended.
-/

namespace LesTokens

/-- A text as its Unicode scalars. -/
abbrev Text := List Char

namespace Text

/-- The length in UTF-8 bytes. -/
def size : Text → Nat
  | [] => 0
  | c :: t => c.utf8Size + size t

/-- The parts before and after a byte offset; none if the offset lies inside a scalar or past the
end. -/
def splitAt? : Nat → Text → Option (Text × Text)
  | 0, t => some ([], t)
  | _ + 1, [] => none
  | n + 1, c :: t =>
    if c.utf8Size ≤ n + 1 then
      (splitAt? (n + 1 - c.utf8Size) t).map fun (before, after) => (c :: before, after)
    else none

/-- The text between two byte offsets; none unless they are in order and both lie between
scalars. -/
def slice? (t : Text) (start stop : Nat) : Option Text :=
  if start ≤ stop then do
    let (_, after) ← splitAt? start t
    let (middle, _) ← splitAt? (stop - start) after
    return middle
  else none

/-- The text from a byte offset on; empty if the offset lies inside a scalar or past the end. -/
def dropBytes (t : Text) (offset : Nat) : Text :=
  ((splitAt? offset t).map (·.2)).getD []

/-- The UTF-8 encoding. -/
def bytes (t : Text) : List UInt8 := t.flatMap String.utf8EncodeChar

/-! ## Offsets and parts -/

@[simp] theorem size_nil : size [] = 0 := rfl

@[simp] theorem size_cons (c : Char) (t : Text) : size (c :: t) = c.utf8Size + size t := rfl

@[simp] theorem size_append (a b : Text) : size (a ++ b) = size a + size b := by
  induction a with
  | nil => simp
  | cons c a ih => simp [ih, Nat.add_assoc]

theorem size_pos {t : Text} (h : t ≠ []) : 0 < size t := by
  cases t with
  | nil => exact absurd rfl h
  | cons c t => have := c.utf8Size_pos; simp; omega

@[simp] theorem splitAt?_zero (t : Text) : splitAt? 0 t = some ([], t) := by
  cases t <;> rfl

theorem splitAt?_cons {c : Char} {n : Nat} (t : Text) (h : c.utf8Size ≤ n) :
    splitAt? n (c :: t) =
      (splitAt? (n - c.utf8Size) t).map fun (before, after) => (c :: before, after) := by
  cases n with
  | zero => have := c.utf8Size_pos; omega
  | succ n => simp [splitAt?, h]

/-- The end of each part of a text is an offset that splits it there. -/
theorem splitAt?_size_append (a b : Text) : splitAt? (size a) (a ++ b) = some (a, b) := by
  induction a with
  | nil => simp
  | cons c a ih =>
    rw [size_cons, List.cons_append, splitAt?_cons _ (Nat.le_add_right _ _),
      Nat.add_sub_cancel_left, ih]
    rfl

/-- Each part of a text is the slice between its ends. -/
theorem slice?_size_append (a b c : Text) :
    slice? (a ++ (b ++ c)) (size a) (size a + size b) = some b := by
  rw [slice?, if_pos (Nat.le_add_right _ _), splitAt?_size_append, Nat.add_sub_cancel_left]
  simp [splitAt?_size_append]

/-- An offset that splits a text is the end of one of its parts. -/
theorem append_of_splitAt? {n : Nat} {t a b : Text} (h : splitAt? n t = some (a, b)) :
    a ++ b = t ∧ size a = n := by
  induction t generalizing n a b with
  | nil =>
    cases n with
    | zero =>
      simp only [splitAt?_zero, Option.some.injEq, Prod.mk.injEq] at h
      obtain ⟨rfl, rfl⟩ := h
      simp
    | succ n => simp [splitAt?] at h
  | cons c t ih =>
    cases n with
    | zero =>
      simp only [splitAt?_zero, Option.some.injEq, Prod.mk.injEq] at h
      obtain ⟨rfl, rfl⟩ := h
      simp
    | succ n =>
      by_cases hc : c.utf8Size ≤ n + 1
      · rw [splitAt?_cons t hc, Option.map_eq_some_iff] at h
        obtain ⟨⟨a', b'⟩, h', heq⟩ := h
        obtain ⟨h1, h2⟩ := ih h'
        simp only [Prod.mk.injEq] at heq
        obtain ⟨rfl, rfl⟩ := heq
        exact ⟨by simp [h1], by simp [h2]; omega⟩
      · simp [splitAt?, hc] at h

end Text

end LesTokens
