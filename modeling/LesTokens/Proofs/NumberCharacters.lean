/-
The characters of a number: a run holds the digits of its base and separators, what else a number has
is a point, a marker, a sign and the letters of its base and its type. No part before the suffix has a
`u` (`Segments.not_mem_stem`), so whether a number is unsigned can be read off its text, with a minus
sign or without one.

**`Segments.hasUnsignedSuffix_scan`**: what is asked of the text of a negative number is what its
suffix says.
-/
import LesTokens.Number.Literal
import LesTokens.Proofs.Dispatch
import LesTokens.Proofs.NumberExtent

namespace LesTokens

/-! ## Runs of digits -/

theorem isRunChar_of_isDigit {base : Base} {c : Char} (h : base.isDigit c = true) :
    Literal.isRunChar base c = true := by
  cases base with
  | binary =>
    have hc : c = '0' ∨ c = '1' := by simpa [Base.isDigit] using h
    rcases hc with rfl | rfl <;> decide
  | decimal =>
    have hc : c.isDigit = true := h
    simp [Literal.isRunChar, hc]
  | hexadecimal => simp [Literal.isRunChar, h]

/-- A decimal digit is one of base two, or a number in base two is refused for it. -/
theorem isDigit_binary_or_stray {c : Char} (h : c.isDigit = true) :
    Base.isDigit .binary c = true ∨ Literal.isStrayDigit c = true := by
  have hc := toNat_of_isDigit h
  have heq (d : Char) : c = d ↔ c.toNat = d.toNat := Char.toNat_inj.symm
  simp only [Base.isDigit, Literal.isStrayDigit, Bool.or_eq_true, Bool.and_eq_true,
    decide_eq_true_eq, heq, Char.le_def, UInt32.le_iff_toNat_le]
  show (c.toNat = 48 ∨ c.toNat = 49) ∨ 50 ≤ c.toNat ∧ c.toNat ≤ 57
  omega

theorem isRunChar_cases {base : Base} {c : Char} (h : Literal.isRunChar base c = true) :
    Literal.isRunChar .decimal c = true ∨ base.isDigit c = true := by
  cases base with
  | binary => exact .inl h
  | decimal => exact .inl h
  | hexadecimal =>
    rcases Bool.or_eq_true_iff.1 h with hc | hc
    · obtain rfl : c = '_' := by simpa using hc
      exact .inl (by decide)
    · exact .inr hc

theorem isRunChar_of_mem_digitRun (base : Base) (t : Text) :
    ∀ c ∈ (digitRun base t).1, Literal.isRunChar base c = true := by
  rw [digitRun_eq_spanBy]
  refine Text.forall_mem_spanBy (fun c t h => ?_) t
  simp only [opensDigitRun, opensWith_cons, opensPair, Bool.or_eq_true, Bool.and_eq_true,
    decide_eq_true_eq] at h
  rcases h with h | ⟨rfl, -⟩
  · exact isRunChar_of_isDigit h
  · cases base <;> decide

theorem isRunChar_of_mem_integerRun (base : Base) (t : Text) :
    ∀ c ∈ (integerRun base t).1, Literal.isRunChar base c = true := by
  unfold integerRun
  dsimp only
  split
  · rename_i hb
    subst hb
    intro c hc
    rcases List.mem_append.1 hc with hc | hc
    · exact isRunChar_of_mem_digitRun _ _ c hc
    · have hdigit := List.all_eq_true.1 List.all_takeWhile c hc
      simp [Literal.isRunChar, hdigit]
  · exact isRunChar_of_mem_digitRun base t

theorem opensWith_rest_digitRun (base : Base) (t : Text) :
    opensWith base.isDigit (digitRun base t).2 = false := by
  have h : opensDigitRun base (digitRun base t).2 = false := opensDigitRun_rest rfl
  rw [opensDigitRun, Bool.or_eq_false_iff] at h
  exact h.1

theorem opensWith_eq_false_of_imp {p q : Char → Bool} (h : ∀ c, p c = true → q c = true) {t : Text}
    (ht : opensWith q t = false) : opensWith p t = false := by
  cases t with
  | nil => rfl
  | cons c t =>
    rw [opensWith_cons, Bool.eq_false_iff] at ht ⊢
    exact fun hc => ht (h c hc)

theorem opensWith_rest_integerRun (base : Base) (t : Text) :
    opensWith base.isDigit (integerRun base t).2 = false := by
  unfold integerRun
  dsimp only
  split
  · rename_i hb
    subst hb
    have hdigit (c : Char) (h : Base.isDigit .binary c = true) : c.isDigit = true := by
      have hc : c = '0' ∨ c = '1' := by simpa [Base.isDigit] using h
      rcases hc with rfl | rfl <;> decide
    exact opensWith_eq_false_of_imp hdigit (opensWith_dropWhile _ _)
  · exact opensWith_rest_digitRun base t

/-! ## Prefixes, fractions, exponents and suffixes -/

theorem scanBase_prefix (t : Text) : ((scanBase t).2.1 = [] ∧ (scanBase t).2.2 = t) ∨
    ∃ c, isBaseLetter c = true ∧ (scanBase t).2.1 = ['0', c] := by
  fun_cases scanBase t with
  | case1 c t h => exact .inr ⟨c, by simp_all [isBaseLetter], rfl⟩
  | case2 c t hx h => exact .inr ⟨c, by simp_all [isBaseLetter], rfl⟩
  | case3 c t hx hb => exact .inl ⟨rfl, rfl⟩
  | case4 t h => exact .inl ⟨rfl, rfl⟩

theorem isRunChar_of_mem_fractionRun (base : Base) (t : Text) :
    ∀ c ∈ (fractionRun base t).1.getD [], Literal.isRunChar base c = true := by
  unfold fractionRun
  split
  · split
    · exact isRunChar_of_mem_digitRun base _
    · simp
  · simp

theorem opensWith_rest_fractionRun {base : Base} {t : Text}
    (h : opensWith base.isDigit t = false) :
    opensWith base.isDigit (fractionRun base t).2 = false := by
  unfold fractionRun
  split
  · split
    · exact opensWith_rest_digitRun base _
    · exact h
  · exact h

theorem eq_of_isExponentMarker {base : Base} {c : Char} (h : isExponentMarker base c = true) :
    c = 'e' ∨ c = 'E' ∨ c = 'p' ∨ c = 'P' := by
  unfold isExponentMarker at h
  split at h
  · have hc : c = 'e' ∨ c = 'E' := by simpa using h
    exact hc.elim .inl fun hc => .inr (.inl hc)
  · have hc : c = 'p' ∨ c = 'P' := by simpa using h
    exact .inr (.inr hc)

/-- An exponent as it is scanned. -/
structure ExponentSegment.WellFormed (base : Base) (e : ExponentSegment) : Prop where
  marker : isExponentMarker base e.marker = true
  sign : ∀ c, e.sign = some c → isSign c = true
  digits : ∀ c ∈ e.digits, Literal.isRunChar .decimal c = true
  hasDigit : e.digits.any Char.isDigit = !(e.sign.isSome && e.digits.isEmpty)

theorem any_isDigit_digitRun (t : Text) :
    (digitRun .decimal t).1.any Char.isDigit = !(digitRun .decimal t).1.isEmpty := by
  cases t with
  | nil => rfl
  | cons c t =>
    unfold digitRun
    split
    · rename_i hc
      simp only [Bool.or_eq_true, Bool.and_eq_true, decide_eq_true_eq] at hc
      rcases hc with hc | ⟨-, ht⟩
      · have hdigit : c.isDigit = true := hc
        simp [hdigit]
      · -- Behind a separator the run goes on with a digit.
        have ho := opensWith_digitRun ht
        rcases hd : (digitRun .decimal t).1 with - | ⟨d, ds⟩
        · simp [hd, opensWith] at ho
        · rw [hd] at ho
          have hdigit : d.isDigit = true := ho
          simp [hd, hdigit]
    · rfl

theorem exponentRun_wellFormed {base : Base} {t r : Text} {e : ExponentSegment}
    (h : exponentRun base t = (some e, r)) : e.WellFormed base := by
  unfold exponentRun at h
  split at h
  · rename_i marker c t
    split at h
    · rename_i hcond
      rw [Bool.and_eq_true] at hcond
      split at h
      · rename_i hs
        simp only [Prod.mk.injEq, Option.some.injEq] at h
        obtain ⟨rfl, -⟩ := h
        refine ⟨hcond.1, fun d hd => ?_, isRunChar_of_mem_digitRun _ _, ?_⟩
        · obtain rfl : c = d := by simpa using hd
          exact hs
        · simpa using any_isDigit_digitRun t
      · rename_i hs
        simp only [Prod.mk.injEq, Option.some.injEq] at h
        obtain ⟨rfl, -⟩ := h
        have hc : c.isDigit = true := by simpa [hs] using hcond.2
        have hdigit : Base.isDigit .decimal c = true := hc
        refine ⟨hcond.1, by simp, isRunChar_of_mem_digitRun _ _, ?_⟩
        rw [any_isDigit_digitRun]
        simp [digitRun, hdigit]
    · simp at h
  · simp at h

/-- All suffixes that are scanned. -/
def suffixes : List Text :=
  [[], ['u'], ['U'], ['l'], ['L'], ['u', 'l'], ['u', 'L'], ['U', 'l'], ['U', 'L'],
    ['l', 'u'], ['l', 'U'], ['L', 'u'], ['L', 'U'], ['f'], ['F'], ['d'], ['D'], ['m'], ['M']]

theorem suffixTail_mem {second : Char → Bool} {first : Char} (hone : [first] ∈ suffixes)
    (htwo : ∀ c, second c = true → [first, c] ∈ suffixes) (t : Text) :
    (suffixTail second first t).1 ∈ suffixes := by
  unfold suffixTail
  split
  · split
    · rename_i hc
      exact htwo _ hc
    · exact hone
  · exact hone

theorem suffixRun_mem (t : Text) : (suffixRun t).1 ∈ suffixes := by
  have two (first : Char) (a b : Char) (ha : [first, a] ∈ suffixes) (hb : [first, b] ∈ suffixes)
      (c : Char) (hc : (decide (c = a) || decide (c = b)) = true) : [first, c] ∈ suffixes := by
    simp only [Bool.or_eq_true, decide_eq_true_eq] at hc
    rcases hc with rfl | rfl
    · exact ha
    · exact hb
  cases t with
  | nil => decide
  | cons c t =>
    rw [suffixRun]
    split
    · rename_i hu
      simp only [Bool.or_eq_true, decide_eq_true_eq] at hu
      rcases hu with rfl | rfl <;>
        exact suffixTail_mem (by decide) (two _ 'l' 'L' (by decide) (by decide)) t
    · split
      · rename_i hl
        simp only [Bool.or_eq_true, decide_eq_true_eq] at hl
        rcases hl with rfl | rfl <;>
          exact suffixTail_mem (by decide) (two _ 'u' 'U' (by decide) (by decide)) t
      · split
        · rename_i hf
          have hall : ['f', 'F', 'd', 'D', 'm', 'M'].all fun d => suffixes.contains [d] := by decide
          exact List.contains_iff_mem.1 (List.all_eq_true.1 hall c (List.contains_iff_mem.1 hf))
        · exact List.mem_cons_self

/-! ## Unsigned suffixes -/

/-- Whether a number, as it is written, ends in the suffix of an unsigned type, in either case. -/
def EndsUnsigned (t : Text) : Prop :=
  ∃ stem tail, t = stem ++ tail ∧ tail.map Char.toLower ∈ [['u'], ['u', 'l'], ['l', 'u']]

theorem EndsUnsigned.of_reverse {t front : Text} (tail : Text)
    (h : t.reverse.map Char.toLower = tail.reverse ++ front)
    (htail : tail ∈ [['u'], ['u', 'l'], ['l', 'u']]) : EndsUnsigned t := by
  have hmap : t.map Char.toLower = front.reverse ++ tail := by
    rw [← List.reverse_inj, ← List.map_reverse, h]
    simp
  obtain ⟨stem, letters, rfl, -, rfl⟩ := List.map_eq_append_iff.1 hmap
  exact ⟨stem, letters, rfl, htail⟩

/-- The last two letters tell whether a text ends in an unsigned suffix. -/
theorem Lexeme.hasUnsignedSuffix_iff {t : Text} : hasUnsignedSuffix t = true ↔ EndsUnsigned t := by
  constructor
  · intro h
    unfold hasUnsignedSuffix at h
    split at h
    · rename_i front hlower
      exact .of_reverse ['u'] hlower (by decide)
    · rename_i second front hlower
      obtain rfl : second = 'u' := of_decide_eq_true h
      exact .of_reverse ['u', 'l'] hlower (by decide)
    · cases h
  · rintro ⟨stem, tail, rfl, htail⟩
    have hlower : (stem ++ tail).reverse.map Char.toLower =
        (tail.map Char.toLower).reverse ++ stem.reverse.map Char.toLower := by
      simp
    unfold hasUnsignedSuffix
    rw [hlower]
    simp only [List.mem_cons, List.not_mem_nil, or_false] at htail
    rcases htail with htail | htail | htail <;> rw [htail] <;> rfl

theorem eq_of_toLower_eq {c : Char} (h : c.toLower = 'u') : c = 'u' ∨ c = 'U' := by
  unfold Char.toLower at h
  split at h
  · have hval : c.val + ('a'.val - 'A'.val) = 'U'.val + ('a'.val - 'A'.val) := congrArg Char.val h
    exact .inr (Char.ext ((UInt32.add_left_inj _).1 hval))
  · exact .inl h

/-- Behind a text without the letter of an unsigned suffix, such a suffix is the one that is scanned. -/
theorem endsUnsigned_append_iff {stem suffix : Text} (hstem : ∀ c ∈ stem, ¬(c = 'u' ∨ c = 'U'))
    (hsuffix : suffix ∈ suffixes) :
    EndsUnsigned (stem ++ suffix) ↔ (suffix.any fun c => c = 'u' || c = 'U') = true := by
  constructor
  · rintro ⟨front, tail, htext, htail⟩
    have hu : 'u' ∈ tail.map Char.toLower := by
      have hall : ∀ s ∈ [['u'], ['u', 'l'], ['l', 'u']], 'u' ∈ s := by decide
      exact hall _ htail
    obtain ⟨c, hc, hlower⟩ := List.mem_map.1 hu
    have hletter := eq_of_toLower_eq hlower
    have hmem : c ∈ stem ++ suffix := by
      rw [htext]
      exact List.mem_append_right _ hc
    have hin := (List.mem_append.1 hmem).resolve_left fun hc => hstem c hc hletter
    exact List.any_eq_true.2 ⟨c, hin, by simpa using hletter⟩
  · intro hunsigned
    have hall : ∀ s ∈ suffixes, (s.any fun c => c = 'u' || c = 'U') = true →
        s.map Char.toLower ∈ [['u'], ['u', 'l'], ['l', 'u']] := by
      decide
    exact ⟨stem, suffix, rfl, hall suffix hsuffix hunsigned⟩

namespace Segments

/-- The letter of an unsigned suffix is in no other part of a number. -/
theorem not_mem_stem (t : Text) {c : Char} (hc : c = 'u' ∨ c = 'U') : c ∉ (scan t).1.stem := by
  have hrun (base : Base) : ¬Literal.isRunChar base c = true := by
    rcases hc with rfl | rfl <;> cases base <;> decide
  rcases hb : scanBase t with ⟨base, pre, t₁⟩
  rcases hi : integerRun base t₁ with ⟨integer, t₂⟩
  rcases hf : fractionRun base t₂ with ⟨fraction, t₃⟩
  rcases he : exponentRun base t₃ with ⟨exponent, t₄⟩
  intro hmem
  simp only [scan, hb, hi, hf, he, stem, List.mem_append] at hmem
  rcases hmem with ((hpre | hinteger) | hfraction) | hexponent
  · have hprefix := scanBase_prefix t
    rw [hb] at hprefix
    rcases hprefix with ⟨rfl, -⟩ | ⟨d, hd, rfl⟩
    · cases hpre
    · have hletter : c = '0' ∨ c = d := by simpa using hpre
      rcases hletter with rfl | rfl
      · simp at hc
      · rcases hc with rfl | rfl <;> cases hd
  · have hall := isRunChar_of_mem_integerRun base t₁
    rw [hi] at hall
    exact hrun base (hall c hinteger)
  · have hall := isRunChar_of_mem_fractionRun base t₂
    rw [hf] at hall
    cases fraction with
    | none => cases hfraction
    | some ds =>
      rcases List.mem_cons.1 hfraction with rfl | hds
      · simp at hc
      · exact hrun base (hall c hds)
  · cases exponent with
    | none => cases hexponent
    | some e =>
      have hwell := exponentRun_wellFormed he
      simp only [Option.map_some, Option.getD_some, ExponentSegment.text, List.mem_cons,
        List.mem_append, Option.mem_toList] at hexponent
      rcases hexponent with rfl | hsign | hdigits
      · rcases eq_of_isExponentMarker hwell.marker with h | h | h | h <;> simp [h] at hc
      · have hsign := hwell.sign c hsign
        rcases hc with rfl | rfl <;> cases hsign
      · exact hrun .decimal (hwell.digits c hdigits)

/-- **Whether a negative number is unsigned is read off its text.** -/
theorem hasUnsignedSuffix_scan (t : Text) :
    Lexeme.hasUnsignedSuffix ('-' :: (scan t).1.text) = (scan t).1.isUnsigned := by
  have hstem : ∀ c ∈ '-' :: (scan t).1.stem, ¬(c = 'u' ∨ c = 'U') := by
    intro c hc hletter
    rcases List.mem_cons.1 hc with rfl | hc
    · simp at hletter
    · exact not_mem_stem t hletter hc
  exact Bool.eq_iff_iff.2
    (Lexeme.hasUnsignedSuffix_iff.trans (endsUnsigned_append_iff hstem (suffixRun_mem _)))

theorem isUnsigned_scan_iff (t : Text) :
    (scan t).1.isUnsigned = true ↔ EndsUnsigned (scan t).1.text :=
  (endsUnsigned_append_iff (fun _ hc hletter => not_mem_stem t hletter hc) (suffixRun_mem _)).symm

end Segments

end LesTokens
