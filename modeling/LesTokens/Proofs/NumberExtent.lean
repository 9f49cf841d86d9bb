/-
How far a number looks past what it takes. Each of its parts, the base prefix, the integer run, the
fraction, the exponent and the suffix, is taken before another rest as before its own, and
**`Segments.scan_replace`** puts the parts together.

A number behind a `-` is only looked at: if it is unsigned, it is no part of the lexeme, and that
it is unsigned does not change with more text after it (`Segments.isUnsigned_append`).
-/
import LesTokens.Proofs.Lookahead

namespace LesTokens

/-- Whether a text opens with a number, its sign apart. -/
def opensNumber (t : Text) : Bool := opensWith Char.isDigit t || opensFraction t

theorem opensNumber_append {t : Text} (h : opensNumber t = true) (b : Text) :
    opensNumber (t ++ b) = true := by
  rw [opensNumber, opensFraction_eq, Bool.or_eq_true] at h ⊢
  exact h.imp (fun h => opensWith_append h b) fun h => opensPair_append h b

theorem Ahead.opensNumber_eq_false {r r' : Text} (h : Ahead r r') (hr : opensNumber r = false) :
    opensNumber r' = false := by
  rw [opensNumber, Bool.or_eq_false_iff] at hr ⊢
  exact ⟨h.opensWith_eq_false (by decide) hr.1, h.opensFraction_eq_false hr.2⟩

theorem Ahead.opensNumber_of {r r' : Text} (h : Ahead r r') (hr : opensNumber r' = true) :
    opensNumber r = true := by
  cases hopens : opensNumber r with
  | true => rfl
  | false =>
    rw [h.opensNumber_eq_false hopens] at hr
    cases hr

/-! ## The parts of a number -/

theorem digitRun_replace {base : Base} {t u r r' : Text} (h : digitRun base t = (u, r))
    (ha : Ahead r r') : digitRun base (u ++ r') = (u, r') := by
  have hr := opensDigitRun_rest h
  have ht : u ++ r = t := by simpa [h] using digitRun_append base t
  subst ht
  have hd : base.isDigit '\n' = false := by cases base <;> decide
  rw [digitRun_eq_spanBy] at h ⊢
  simp only [opensDigitRun, Bool.or_eq_false_iff] at hr
  refine Text.spanBy_replace (fun c w hc => ?_) ?_ h
  · simp only [opensDigitRun, opensPair, Bool.or_eq_true, Bool.and_eq_true] at hc ⊢
    refine hc.imp_right fun hc => ⟨hc.1, ?_⟩
    -- A separator before the rest would have taken the rest's first digit with it.
    cases w with
    | nil => exact absurd hc.2 (by simp [hr.1])
    | cons d w => exact hc.2
  · simp only [opensDigitRun, Bool.or_eq_false_iff]
    exact ⟨ha.opensWith_eq_false hd hr.1, ha.opensPair_eq_false (by decide) hd hr.2⟩

theorem integerRun_replace {base : Base} {t u r r' : Text} (h : integerRun base t = (u, r))
    (ha : Ahead r r') : integerRun base (u ++ r') = (u, r') := by
  unfold integerRun at h ⊢
  rcases hd : digitRun base t with ⟨digits, rest⟩
  rw [hd] at h
  dsimp only at h
  split at h
  · rename_i hb
    simp only [Prod.mk.injEq] at h
    obtain ⟨rfl, rfl⟩ := h
    have hrest : rest.takeWhile Char.isDigit ++ rest.dropWhile Char.isDigit = rest :=
      List.takeWhile_append_dropWhile
    have har := ha.append (rest.takeWhile Char.isDigit)
    rw [hrest] at har
    dsimp only
    rw [List.append_assoc, digitRun_replace hd har]
    dsimp only
    rw [if_pos hb, takeWhile_replace (by decide) ha, dropWhile_replace (by decide) ha]
  · rename_i hb
    simp only [Prod.mk.injEq] at h
    obtain ⟨rfl, rfl⟩ := h
    rw [digitRun_replace hd ha]
    dsimp only
    rw [if_neg hb]

theorem opensWith_digitRun {base : Base} {t : Text} (h : opensWith base.isDigit t = true) :
    opensWith base.isDigit (digitRun base t).1 = true := by
  cases t with
  | nil => exact h
  | cons c t =>
    rw [opensWith_cons] at h
    simp [digitRun, h, opensWith]

theorem fractionRun_of_not {base : Base} {t : Text}
    (h : opensPair (· = '.') base.isDigit t = false) : fractionRun base t = (none, t) := by
  unfold fractionRun
  split
  · simp only [opensPair, decide_true, Bool.true_and] at h
    rw [if_neg (by simp [h])]
  · rfl

theorem fractionRun_replace {base : Base} {t r r' : Text} {f : Option Text}
    (h : fractionRun base t = (f, r)) (ha : Ahead r r') :
    fractionRun base ((f.map ('.' :: ·)).getD [] ++ r') = (f, r') := by
  have hd : base.isDigit '\n' = false := by cases base <;> decide
  by_cases hp : opensPair (· = '.') base.isDigit t = true
  · obtain ⟨c, d, t, rfl, hc, hdigit⟩ := exists_of_opensPair hp
    obtain rfl : c = '.' := by simpa using hc
    rcases hdr : digitRun base (d :: t) with ⟨digits, rest⟩
    simp only [fractionRun, opensWith, hdigit, if_true, hdr, Prod.mk.injEq] at h
    obtain ⟨rfl, rfl⟩ := h
    have hopen : opensWith base.isDigit (digits ++ r') = true := by
      have ho := opensWith_digitRun (t := d :: t) hdigit
      rw [hdr] at ho
      exact opensWith_append ho r'
    simp only [Option.map_some, Option.getD_some, List.cons_append, fractionRun, hopen, if_true,
      digitRun_replace hdr ha]
  · rw [Bool.not_eq_true] at hp
    rw [fractionRun_of_not hp, Prod.mk.injEq] at h
    obtain ⟨rfl, rfl⟩ := h
    exact fractionRun_of_not (ha.opensPair_eq_false (by decide) hd hp)

theorem exponentRun_of_not {base : Base} {t : Text}
    (h : opensPair (isExponentMarker base) (fun c => c.isDigit || isSign c) t = false) :
    exponentRun base t = (none, t) := by
  unfold exponentRun
  split
  · exact if_neg (by simpa [opensPair, opensWith] using h)
  · rfl

theorem exponentRun_replace {base : Base} {t r r' : Text} {e : Option ExponentSegment}
    (h : exponentRun base t = (e, r)) (ha : Ahead r r') :
    exponentRun base ((e.map ExponentSegment.text).getD [] ++ r') = (e, r') := by
  have hm : finals.any (isExponentMarker base) = false := by cases base <;> decide
  by_cases hp : opensPair (isExponentMarker base) (fun c => c.isDigit || isSign c) t = true
  · obtain ⟨marker, c, t, rfl, hmarker, hc⟩ := exists_of_opensPair hp
    have hcond : (isExponentMarker base marker && (c.isDigit || isSign c)) = true := by
      rw [hmarker, hc]; rfl
    rw [exponentRun, if_pos hcond] at h
    split at h
    · rename_i hs
      rcases hdr : digitRun .decimal t with ⟨digits, rest⟩
      simp only [hdr, Prod.mk.injEq] at h
      obtain ⟨rfl, rfl⟩ := h
      simp only [Option.map_some, Option.getD_some, ExponentSegment.text, Option.toList_some,
        List.cons_append, List.nil_append]
      rw [exponentRun, if_pos hcond, if_pos hs, digitRun_replace hdr ha]
    · rename_i hs
      rcases hdr : digitRun .decimal (c :: t) with ⟨digits, rest⟩
      simp only [hdr, Prod.mk.injEq] at h
      obtain ⟨rfl, rfl⟩ := h
      -- Without a sign the digits start with the character behind the marker.
      obtain ⟨digits, rfl⟩ : ∃ ds, digits = c :: ds := by
        have hdigit : c.isDigit = true := by simpa [hs] using hc
        simp only [digitRun, show Base.isDigit .decimal c = true from hdigit, Bool.true_or, if_true,
          Prod.mk.injEq] at hdr
        exact ⟨_, hdr.1.symm⟩
      have hdr' := digitRun_replace hdr ha
      rw [List.cons_append] at hdr'
      simp only [Option.map_some, Option.getD_some, ExponentSegment.text, Option.toList_none,
        List.cons_append, List.nil_append]
      rw [exponentRun, if_pos hcond, if_neg hs, hdr']
  · rw [Bool.not_eq_true] at hp
    rw [exponentRun_of_not hp, Prod.mk.injEq] at h
    obtain ⟨rfl, rfl⟩ := h
    exact exponentRun_of_not (ha.opensPair_eq_false hm (by decide) hp)

/-- The letters of a base prefix, after its `0`. -/
def isBaseLetter (c : Char) : Bool := (c = 'x' || c = 'X') || (c = 'b' || c = 'B')

theorem scanBase_of_not {t : Text} (h : opensPair (· = '0') isBaseLetter t = false) :
    scanBase t = (.decimal, [], t) := by
  unfold scanBase
  split
  · rename_i c t
    simp only [opensPair, opensWith, decide_true, Bool.true_and, isBaseLetter,
      Bool.or_eq_false_iff] at h
    rw [if_neg (by simp [h.1]), if_neg (by simp [h.2])]
  · rfl

theorem scanBase_cases (t : Text) :
    (∃ c s, t = '0' :: c :: s ∧
      ∃ base, ∀ s', scanBase ('0' :: c :: s') = (base, ['0', c], s')) ∨
    opensPair (· = '0') isBaseLetter t = false := by
  by_cases hp : opensPair (· = '0') isBaseLetter t = true
  · obtain ⟨z, c, s, rfl, hz, hc⟩ := exists_of_opensPair hp
    obtain rfl : z = '0' := by simpa using hz
    refine .inl ⟨c, s, rfl, ?_⟩
    by_cases hx : (decide (c = 'x') || decide (c = 'X')) = true
    · exact ⟨.hexadecimal, fun s' => if_pos hx⟩
    · have hb : (decide (c = 'b') || decide (c = 'B')) = true := by
        rw [isBaseLetter, Bool.or_eq_true_iff] at hc
        exact hc.resolve_left hx
      exact ⟨.binary, fun s' => by rw [scanBase, if_neg hx, if_pos hb]⟩
  · exact .inr (by simpa using hp)

theorem scanBase_replace {t pre r r' : Text} {base : Base} (h : scanBase t = (base, pre, r))
    (ha : Ahead r r') : scanBase (pre ++ r') = (base, pre, r') := by
  rcases scanBase_cases t with ⟨c, s, rfl, base', hs⟩ | hp
  · rw [hs, Prod.mk.injEq, Prod.mk.injEq] at h
    obtain ⟨rfl, rfl, rfl⟩ := h
    exact hs r'
  · rw [scanBase_of_not hp, Prod.mk.injEq, Prod.mk.injEq] at h
    obtain ⟨rfl, rfl, rfl⟩ := h
    exact scanBase_of_not (ha.opensPair_eq_false (by decide) (by decide) hp)

theorem suffixTail_replace {second : Char → Bool} (hn : second '\n' = false) {first : Char}
    {t u r r' : Text} (h : suffixTail second first t = (first :: u, r)) (ha : Ahead r r') :
    suffixTail second first (u ++ r') = (first :: u, r') := by
  have hstop : ∀ w, opensWith second w = false → suffixTail second first w = ([first], w) := by
    intro w hw
    cases w with
    | nil => rfl
    | cons c w => rw [suffixTail, if_neg (by simpa [opensWith] using hw)]
  by_cases hp : opensWith second t = true
  · cases t with
    | nil => simp [opensWith] at hp
    | cons c t =>
      rw [opensWith_cons] at hp
      rw [suffixTail, if_pos hp] at h
      simp only [Prod.mk.injEq, List.cons.injEq, true_and] at h
      obtain ⟨rfl, rfl⟩ := h
      rw [List.cons_append, suffixTail, if_pos hp]
      rfl
  · rw [Bool.not_eq_true] at hp
    rw [hstop t hp] at h
    simp only [Prod.mk.injEq, List.cons.injEq, true_and] at h
    obtain ⟨rfl, rfl⟩ := h
    exact hstop r' (ha.opensWith_eq_false hn hp)

/-- The letters a type suffix starts with. -/
def isSuffixLetter (c : Char) : Bool :=
  (c = 'u' || c = 'U') || (c = 'l' || c = 'L') || ['f', 'F', 'd', 'D', 'm', 'M'].contains c

theorem suffixRun_of_not {t : Text} (h : opensWith isSuffixLetter t = false) :
    suffixRun t = ([], t) := by
  cases t with
  | nil => rfl
  | cons c t =>
    rw [opensWith_cons, isSuffixLetter, Bool.or_eq_false_iff, Bool.or_eq_false_iff] at h
    rw [suffixRun, if_neg (Bool.eq_false_iff.1 h.1.1), if_neg (Bool.eq_false_iff.1 h.1.2),
      if_neg (Bool.eq_false_iff.1 h.2)]

theorem suffixTail_ne_nil (second : Char → Bool) (first : Char) (t : Text) :
    ∃ u, (suffixTail second first t).1 = first :: u := by
  fun_cases suffixTail second first t <;> exact ⟨_, rfl⟩

theorem suffixRun_replace {t s r r' : Text} (h : suffixRun t = (s, r)) (ha : Ahead r r') :
    suffixRun (s ++ r') = (s, r') := by
  by_cases hp : opensWith isSuffixLetter t = true
  · cases t with
    | nil => simp [opensWith] at hp
    | cons c t =>
      rw [opensWith_cons] at hp
      -- A suffix of two letters is its first letter's own, so each first letter is a case.
      have two : ∀ {second : Char → Bool}, second '\n' = false →
          (∀ t, suffixRun (c :: t) = suffixTail second c t) →
          suffixRun (s ++ r') = (s, r') := by
        intro second hn hrun
        obtain ⟨u, hu⟩ := suffixTail_ne_nil second c t
        rw [hrun] at h
        obtain rfl : s = c :: u := by rw [← hu, h]
        rw [List.cons_append, hrun]
        exact suffixTail_replace hn h ha
      by_cases hu : (decide (c = 'u') || decide (c = 'U')) = true
      · exact @two (fun d => d = 'l' || d = 'L') (by decide) fun t => if_pos hu
      by_cases hl : (decide (c = 'l') || decide (c = 'L')) = true
      · exact @two (fun d => d = 'u' || d = 'U') (by decide) fun t => by
          rw [suffixRun, if_neg hu, if_pos hl]
      have hf : ['f', 'F', 'd', 'D', 'm', 'M'].contains c = true := by
        simpa [isSuffixLetter, hu, hl] using hp
      have one : ∀ t, suffixRun (c :: t) = ([c], t) := fun t => by
        rw [suffixRun, if_neg hu, if_neg hl, if_pos hf]
      rw [one, Prod.mk.injEq] at h
      obtain ⟨rfl, rfl⟩ := h
      exact one r'
  · rw [Bool.not_eq_true] at hp
    rw [suffixRun_of_not hp, Prod.mk.injEq] at h
    obtain ⟨rfl, rfl⟩ := h
    exact suffixRun_of_not (ha.opensWith_eq_false (by decide) hp)

/-! ## Numbers -/

namespace Segments

/-- A number without its suffix. -/
def stem (n : Segments) : Text :=
  n.basePrefix ++ n.integer ++ (n.fraction.map ('.' :: ·)).getD [] ++
    (n.exponent.map ExponentSegment.text).getD []

theorem text_eq_stem (n : Segments) : n.text = n.stem ++ n.suffix := rfl

/-- The stem of a number is taken whatever follows it, if that opens with nothing new; the suffix
is then what is there. -/
theorem scan_stem {t r w : Text} {n : Segments} (h : scan t = (n, r))
    (ha : Ahead (n.suffix ++ r) w) :
    scan (n.stem ++ w) = ({ n with suffix := (suffixRun w).1 }, (suffixRun w).2) := by
  rcases hb : scanBase t with ⟨base, pre, t₁⟩
  rcases hi : integerRun base t₁ with ⟨integer, t₂⟩
  rcases hf : fractionRun base t₂ with ⟨fraction, t₃⟩
  rcases he : exponentRun base t₃ with ⟨exponent, t₄⟩
  rcases hs : suffixRun t₄ with ⟨suffix, t₅⟩
  simp only [scan, hb, hi, hf, he, hs, Prod.mk.injEq] at h
  obtain ⟨rfl, rfl⟩ := h
  have e₄ : suffix ++ t₅ = t₄ := by simpa [hs] using suffixRun_append t₄
  have e₃ := exponentRun_append base t₃
  have e₂ := fractionRun_append base t₂
  have e₁ : integer ++ t₂ = t₁ := by simpa [hi] using integerRun_append base t₁
  rw [he] at e₃
  rw [hf] at e₂
  rw [e₄] at ha
  have a₃ := ha.append ((exponent.map ExponentSegment.text).getD [])
  rw [e₃] at a₃
  have a₂ := a₃.append ((fraction.map ('.' :: ·)).getD [])
  rw [e₂] at a₂
  have a₁ := a₂.append integer
  rw [e₁] at a₁
  simp only [stem, List.append_assoc, scan, scanBase_replace hb a₁, integerRun_replace hi a₂,
    fractionRun_replace hf a₃, exponentRun_replace he ha]

theorem opensNumber_text {t : Text} (h : opensNumber t = true) (b : Text) :
    opensNumber ((scan t).1.text ++ b) = true := by
  refine opensNumber_append ?_ b
  have hs := scan_append t
  rw [opensNumber, Bool.or_eq_true] at h ⊢
  rcases h with h | h
  · left
    cases t with
    | nil => simp [opensWith] at h
    | cons c t =>
      rcases ht : (scan (c :: t)).1.text with - | ⟨d, u⟩
      · exact absurd ht (text_scan_ne_nil_of_digit h)
      · rw [ht, List.cons_append, List.cons.injEq] at hs
        rw [opensWith_cons, hs.1]
        exact h
  · right
    rw [opensFraction_eq] at h ⊢
    obtain ⟨c, d, t, rfl, hc, hd⟩ := exists_of_opensPair h
    obtain rfl : c = '.' := by simpa using hc
    have hdigit : Base.isDigit .decimal d = true := hd
    have hpoint : Base.isDigit .decimal '.' = false := by decide
    simp [scan, text, scanBase, integerRun, digitRun, fractionRun, opensWith, opensPair, hdigit,
      hpoint, hd]

theorem suffixRun_of_scan {t r : Text} {n : Segments} (h : scan t = (n, r)) :
    suffixRun (n.suffix ++ r) = (n.suffix, r) := by
  simp only [scan, Prod.mk.injEq] at h
  obtain ⟨rfl, rfl⟩ := h
  dsimp only
  rw [suffixRun_append]

/-- **A number is taken before another rest as before its own**, if that opens with nothing new. -/
theorem scan_replace {t r r' : Text} {n : Segments} (h : scan t = (n, r)) (ha : Ahead r r') :
    scan (n.text ++ r') = (n, r') := by
  have hs := suffixRun_replace (suffixRun_of_scan h) ha
  rw [text_eq_stem, List.append_assoc, scan_stem h (ha.append n.suffix), hs]

end Segments

/-! ## Unsigned numbers -/

/-- Whether the suffix asks for an unsigned type: `u`, `ul` or `lu` in either case. -/
def Segments.isUnsigned (n : Segments) : Bool := n.suffix.any fun c => c = 'u' || c = 'U'

/-- An unsigned suffix starts with a letter behind which no scanner looks, and is still unsigned
with more text after it. -/
theorem suffixRun_unsigned {t : Text}
    (h : ((suffixRun t).1.any fun c => c = 'u' || c = 'U') = true) (b : Text) :
    (∃ c ∈ finals, ∃ s, t = c :: s) ∧
      ((suffixRun (t ++ b)).1.any fun c => c = 'u' || c = 'U') = true := by
  cases t with
  | nil => simp [suffixRun] at h
  | cons c t =>
    by_cases hu : (decide (c = 'u') || decide (c = 'U')) = true
    · refine ⟨⟨c, ?_, t, rfl⟩, ?_⟩
      · simp only [Bool.or_eq_true, decide_eq_true_eq] at hu
        rcases hu with rfl | rfl <;> decide
      · obtain ⟨u, e⟩ := suffixTail_ne_nil (fun d => d = 'l' || d = 'L') c (t ++ b)
        rw [List.cons_append, suffixRun, if_pos hu, e, List.any_cons, hu, Bool.true_or]
    by_cases hl : (decide (c = 'l') || decide (c = 'L')) = true
    · refine ⟨⟨c, ?_, t, rfl⟩, ?_⟩
      · simp only [Bool.or_eq_true, decide_eq_true_eq] at hl
        rcases hl with rfl | rfl <;> decide
      · rw [suffixRun, if_neg hu, if_pos hl] at h
        rw [List.cons_append, suffixRun, if_neg hu, if_pos hl]
        cases t with
        | nil => simp [suffixTail, hu] at h
        | cons d t =>
          by_cases hd : (decide (d = 'u') || decide (d = 'U')) = true
          · simp [suffixTail, hd]
          · simp [suffixTail, hd, hu] at h
    · rw [suffixRun, if_neg hu, if_neg hl] at h
      split at h
      · simp [hu] at h
      · simp at h

namespace Segments

theorem isUnsigned_append {t : Text} (h : (scan t).1.isUnsigned = true) (b : Text) :
    (scan (t ++ b)).1.isUnsigned = true := by
  rcases hs : scan t with ⟨n, r⟩
  have ht : n.stem ++ (n.suffix ++ r) = t := by
    rw [← List.append_assoc, ← text_eq_stem]
    simpa [hs] using scan_append t
  have hrun := suffixRun_of_scan hs
  rw [hs, isUnsigned] at h
  obtain ⟨⟨c, hc, s, e⟩, hb⟩ := suffixRun_unsigned (t := n.suffix ++ r) (by rw [hrun]; exact h) b
  have ha : Ahead (n.suffix ++ r) (n.suffix ++ r ++ b) := by
    rw [e]
    exact .final hc s (s ++ b)
  rw [← ht, List.append_assoc, scan_stem hs ha]
  exact hb

end Segments

end LesTokens
