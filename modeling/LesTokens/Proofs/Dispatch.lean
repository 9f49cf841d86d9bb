/-
Which lexeme a first character starts. `Lexeme.scan` tries the kinds one after another; here each
kind has a condition of its own, apart from the order in which they are tried.

**`Lexeme.scan_eq_iff`**: scanning gives a result exactly if one of the kinds does.
-/
import LesTokens.Lexeme

namespace LesTokens

/-! ## Classes that exclude each other -/

theorem ne_of_class {p : Char → Bool} {c d : Char} (h : p c = true) (hd : p d = false) : c ≠ d := by
  rintro rfl
  rw [h] at hd
  cases hd

theorem isBlank_iff {c : Char} : isBlank c = true ↔ c = ' ' ∨ c = '\t' := by
  simp [isBlank]

theorem isLineEnd_iff {c : Char} : isLineEnd c = true ↔ c = '\n' ∨ c = '\r' := by
  simp [isLineEnd]

theorem excludes_of_class {p : Char → Bool} {c : Char} (h : p c = true)
    (hp : p ' ' = false ∧ p '\t' = false ∧ p '\n' = false ∧ p '\r' = false) :
    isLineEnd c = false ∧ isBlank c = false := by
  constructor
  · rw [Bool.eq_false_iff]
    intro hc
    rcases isLineEnd_iff.1 hc with e | e
    · exact ne_of_class h hp.2.2.1 e
    · exact ne_of_class h hp.2.2.2 e
  · rw [Bool.eq_false_iff]
    intro hc
    rcases isBlank_iff.1 hc with e | e
    · exact ne_of_class h hp.1 e
    · exact ne_of_class h hp.2.1 e

theorem toNat_of_isDigit {c : Char} (h : c.isDigit = true) : 48 ≤ c.toNat ∧ c.toNat ≤ 57 := by
  have hc : 48 ≤ c.val.toNat ∧ c.val.toNat ≤ 57 := by
    simpa [Char.isDigit, UInt32.le_iff_toNat_le] using h
  exact hc

theorem isAlpha_of_isDigit {c : Char} (h : c.isDigit = true) : c.isAlpha = false := by
  have hc := toNat_of_isDigit h
  rw [Bool.eq_false_iff]
  intro ha
  rcases Bool.or_eq_true_iff.1 (ha : (c.isUpper || c.isLower) = true) with hu | hl
  · have hupper : 'A'.val ≤ c.val ∧ c.val ≤ 'Z'.val := of_decide_eq_true hu
    have hlow : 65 ≤ c.toNat := UInt32.le_iff_toNat_le.1 hupper.1
    omega
  · have hlower : 'a'.val ≤ c.val := of_decide_eq_true (Bool.and_eq_true_iff.1 hl).1
    have hlow : 97 ≤ c.toNat := UInt32.le_iff_toNat_le.1 hlower
    omega

theorem isIdentStart_of_isDigit {c : Char} (h : c.isDigit = true) : isIdentStart c = false := by
  have hc := toNat_of_isDigit h
  have h1 : c ≠ '_' := ne_of_class h (by decide)
  have h2 : c ≠ '#' := ne_of_class h (by decide)
  simp [isIdentStart, isAsciiIdentStart, isAlpha_of_isDigit h, h1, h2, show c.toNat < 128 by omega]

theorem eq_of_opensFraction {c : Char} {t : Text} (h : opensFraction (c :: t) = true) : c = '.' := by
  unfold opensFraction at h
  split at h <;> simp_all

namespace LineEnding

theorem opening?_eq_none_iff {c : Char} {t : Text} :
    opening? (c :: t) = none ↔ isLineEnd c = false := by
  unfold opening?
  split <;> simp_all [isLineEnd]

end LineEnding

namespace Lexeme

/-- Whether a character starts a lexeme wherever it stands. -/
def startsLexeme (c : Char) : Bool :=
  isLineEnd c || isBlank c || isIdentStart c || c.isDigit || isOperatorChar c ||
    ['\x22', '\x27', '\x60', '@'].contains c || (punctuation? c).isSome

/-- Whether a character is of none of the classes that are tried before operators. -/
def isOtherwiseFree (c : Char) : Bool :=
  !isLineEnd c && !isBlank c && !isIdentStart c && !c.isDigit &&
    !(['\x22', '\x27', '\x60', '@'].contains c) && (punctuation? c).isNone

theorem excludes_of_isOperatorChar {c : Char} (h : isOperatorChar c = true) :
    isLineEnd c = false ∧ isBlank c = false ∧ isIdentStart c = false ∧ c.isDigit = false ∧
      c ∉ ['\x22', '\x27', '\x60', '@'] ∧ punctuation? c = none := by
  simp only [isOperatorChar, List.contains_iff_mem] at h
  have hall := List.all_eq_true.1 (by decide : List.all _ isOtherwiseFree = true) c h
  simp only [isOtherwiseFree, Bool.and_eq_true, Bool.not_eq_true', List.contains_eq_mem,
    decide_eq_false_iff_not, Option.isNone_iff_eq_none] at hall
  obtain ⟨⟨⟨⟨⟨hline, hblank⟩, hident⟩, hdigit⟩, hquote⟩, hpunct⟩ := hall
  exact ⟨hline, hblank, hident, hdigit, hquote, hpunct⟩

/-- What is scanned at the front of `c :: t`, by the class of the first character. -/
inductive Scanned (before : Option Char) (c : Char) (t : Text) (x : Lexeme × Text) : Prop
  | newline {ending : LineEnding} (h : LineEnding.opening? (c :: t) = some ending)
      (hx : newline ending (c :: t) = x)
  | spaces (h : isBlank c = true) (hx : run .spaces isBlank c t = x)
  | shebang (hc : c = '#') (hb : before = none) (ht : opensWith (· = '!') t = true)
      (hx : (⟨.shebang, c :: restOfLine t⟩, afterLine t) = x)
  | ident (h : isIdentStart c = true)
      (hs : c = '#' → before = none → opensWith (· = '!') t = false)
      (hx : run .ident isIdentContinue c t = x)
  | number (h : (c.isDigit || opensFraction (c :: t)) = true) (hx : number (c :: t) = x)
  | minus (hc : c = '-') (hx : minus before t = x)
  | slash (hc : c = '/') (hx : slash t = x)
  | doubleQuote (hc : c = '\x22') (hx : doubleQuote t = x)
  | singleQuote (hc : c = '\x27') (hx : singleQuote t = x)
  | backQuote (hc : c = '\x60')
      (hx : quotedForm .backQuote .unterminatedBackQuote ['\x60'] '\x60' t = x)
  | atSign (hc : c = '@') (hx : atSign t = x)
  | punctuation {tag : Tag} (h : punctuation? c = some tag) (hx : single tag c t = x)
  | operator (h : isOperatorChar c = true) (hm : c ≠ '-') (hs : c ≠ '/')
      (hf : opensFraction (c :: t) = false) (hx : operator c t = x)
  | unknown (h : startsLexeme c = false) (hx : single .unknown c t = x)

theorem Scanned.ite {before : Option Char} {c : Char} {t : Text} {p : Prop} [Decidable p]
    {x y : Lexeme × Text} (h : p → Scanned before c t x) (h' : ¬p → Scanned before c t y) :
    Scanned before c t (if p then x else y) := by
  by_cases hp : p
  · rw [if_pos hp]
    exact h hp
  · rw [if_neg hp]
    exact h' hp

/-- Every first character starts a lexeme of one of the kinds. -/
theorem scanned (before : Option Char) (c : Char) (t : Text) :
    Scanned before c t (scan before c t) := by
  unfold scan
  split
  · rename_i ending h
    exact .newline h rfl
  rename_i hn
  have hline := LineEnding.opening?_eq_none_iff.1 hn
  -- The kinds are tried in order, and each is reached when those before it do not apply.
  refine .ite (fun h => .spaces h rfl) fun hblank => ?_
  refine .ite (fun h => ?_) fun hshebang => ?_
  · simp only [Bool.and_eq_true, decide_eq_true_eq, Option.isNone_iff_eq_none] at h
    exact .shebang h.1.1 h.1.2 h.2 rfl
  refine .ite (fun h => .ident h (fun hc hb => ?_) rfl) fun hident => ?_
  · simpa [hc, hb] using hshebang
  refine .ite (fun h => .number h rfl) fun hnum => ?_
  simp only [Bool.or_eq_true, not_or, Bool.not_eq_true] at hnum
  refine .ite (fun h => .minus h rfl) fun hminus => ?_
  refine .ite (fun h => .slash h rfl) fun hslash => ?_
  refine .ite (fun h => .doubleQuote h rfl) fun hdouble => ?_
  refine .ite (fun h => .singleQuote h rfl) fun hsingle => ?_
  refine .ite (fun h => .backQuote h rfl) fun hback => ?_
  refine .ite (fun h => .atSign h rfl) fun hat => ?_
  cases hpunct : punctuation? c with
  | some tag => exact .punctuation hpunct rfl
  | none =>
    refine .ite (fun h => .operator h hminus hslash hnum.2 rfl) fun hop => .unknown ?_ rfl
    simp_all [startsLexeme]

theorem Scanned.eq {before : Option Char} {c : Char} {t : Text} {x : Lexeme × Text}
    (h : Scanned before c t x) : scan before c t = x := by
  cases h with
  | newline h hx => simp only [scan, h, hx]
  | spaces h hx =>
    have hline : isLineEnd c = false := by
      rcases isBlank_iff.1 h with rfl | rfl <;> decide
    simp only [scan, LineEnding.opening?_eq_none_iff.2 hline, h, ↓reduceIte, hx]
  | shebang hc hb ht hx =>
    subst hc hb
    simp only [scan, LineEnding.opening?_eq_none_iff.2 (show isLineEnd '#' = false by decide), ht,
      show isBlank '#' = false by decide, Option.isNone_none, decide_true, Bool.true_and,
      Bool.false_eq_true, ↓reduceIte, hx]
  | ident h hs hx =>
    have hex := excludes_of_class h (by decide)
    have hns : (decide (c = '#') && before.isNone && opensWith (· = '!') t) = false := by
      by_cases hc : c = '#' <;> cases before <;> simp_all
    simp only [scan, LineEnding.opening?_eq_none_iff.2 hex.1, hex.2, hns, h, Bool.false_eq_true,
      ↓reduceIte, hx]
  | number h hx =>
    have hex : isLineEnd c = false ∧ isBlank c = false ∧ c ≠ '#' ∧ isIdentStart c = false := by
      rcases Bool.or_eq_true_iff.1 h with h | h
      · have hex := excludes_of_class h (by decide)
        exact ⟨hex.1, hex.2, ne_of_class h (by decide), isIdentStart_of_isDigit h⟩
      · obtain rfl := eq_of_opensFraction h
        decide
    simp only [scan, LineEnding.opening?_eq_none_iff.2 hex.1, hex.2.1, hex.2.2.1, hex.2.2.2, h,
      decide_false, Bool.false_and, Bool.false_eq_true, ↓reduceIte, hx]
  | minus hc hx =>
    subst hc
    rw [← hx]
    rfl
  | slash hc hx =>
    subst hc
    rw [← hx]
    rfl
  | doubleQuote hc hx =>
    subst hc
    rw [← hx]
    rfl
  | singleQuote hc hx =>
    subst hc
    rw [← hx]
    rfl
  | backQuote hc hx =>
    subst hc
    rw [← hx]
    rfl
  | atSign hc hx =>
    subst hc
    rw [← hx]
    rfl
  | punctuation h hx =>
    rw [← hx]
    revert h
    fun_cases punctuation? c <;> intro h <;> cases h <;> rfl
  | operator h hm hs hf hx =>
    obtain ⟨hline, hblank, hident, hdigit, hquote, hpunct⟩ := excludes_of_isOperatorChar h
    have hh : c ≠ '#' := ne_of_class h (by decide)
    have hstart : (c.isDigit || opensFraction (c :: t)) = false := by simp [hdigit, hf]
    simp only [List.mem_cons, List.not_mem_nil, or_false, not_or] at hquote
    obtain ⟨h1, h2, h3, h4⟩ := hquote
    simp only [scan, LineEnding.opening?_eq_none_iff.2 hline, hblank, hh, hident, hstart, hm, hs,
      h1, h2, h3, h4, hpunct, h, decide_false, Bool.false_and, Bool.false_eq_true, ↓reduceIte, hx]
  | unknown h hx =>
    simp only [startsLexeme, Bool.or_eq_false_iff, List.contains_eq_mem, decide_eq_false_iff_not,
      Option.isSome_eq_false_iff, Option.isNone_iff_eq_none] at h
    obtain ⟨⟨⟨⟨⟨⟨hline, hblank⟩, hident⟩, hdigit⟩, hop⟩, hquote⟩, hpunct⟩ := h
    have hh : c ≠ '#' := by rintro rfl; exact absurd hident (by decide)
    have hm : c ≠ '-' := by rintro rfl; exact absurd hop (by decide)
    have hs : c ≠ '/' := by rintro rfl; exact absurd hop (by decide)
    have hf : opensFraction (c :: t) = false := by
      rw [Bool.eq_false_iff]
      intro hf
      obtain rfl := eq_of_opensFraction hf
      exact absurd hop (by decide)
    have hstart : (c.isDigit || opensFraction (c :: t)) = false := by simp [hdigit, hf]
    simp only [List.mem_cons, List.not_mem_nil, or_false, not_or] at hquote
    obtain ⟨h1, h2, h3, h4⟩ := hquote
    simp only [scan, LineEnding.opening?_eq_none_iff.2 hline, hblank, hh, hident, hstart, hm, hs,
      h1, h2, h3, h4, hpunct, hop, decide_false, Bool.false_and, Bool.false_eq_true, ↓reduceIte, hx]

/-- **Scanning gives a result exactly if one of the kinds does.** -/
theorem scan_eq_iff {before : Option Char} {c : Char} {t : Text} {x : Lexeme × Text} :
    scan before c t = x ↔ Scanned before c t x :=
  ⟨fun h => h ▸ scanned before c t, Scanned.eq⟩

/-! ## The text of a lexeme -/

theorem Splits.of_scan {before : Option Char} {c : Char} {t r : Text} {l : Lexeme}
    (h : scan before c t = (l, r)) : Splits (l, r) (c :: t) := by
  rw [← h]
  exact scan_splits before c t

theorem Splits.exists_tail {l : Lexeme} {r t : Text} {c : Char} (h : Splits (l, r) (c :: t)) :
    ∃ u, l.text = c :: u := by
  obtain ⟨hne, hs⟩ := h
  cases hl : l.text with
  | nil => exact absurd hl hne
  | cons d u =>
    rw [hl, List.cons_append, List.cons.injEq] at hs
    exact ⟨u, by rw [hs.1]⟩

theorem Splits.tail {s : Lexeme × Text} {t opener u : Text} (h : Splits s (opener ++ t))
    (hu : s.1.text = opener ++ u) : u ++ s.2 = t := by
  have hs := h.2
  rw [hu, List.append_assoc] at hs
  exact List.append_cancel_left hs

end Lexeme
end LesTokens
