/-
Where the digits of a number end. Each run takes all digits of its base, and the integer run of base
two all decimal ones as well (`opensWith_isDigit_integerRun`), so that a digit that is none of the
base is part of the number and is reported. The fraction of base two takes its own two digits alone:
if the number ends there, a decimal digit behind it starts another number (`Segments.CutBefore`).
There is no other way for a number to end between two digits.

**`Text.digits_cut_iff`**: a number that ends with a digit has a digit behind it exactly there.
-/
import LesTokens.Proofs.Separators

namespace LesTokens

/-! ## Ends of runs -/

theorem endsWith_append {p : Char → Bool} (t : Text) {u : Text} (h : u ≠ []) :
    endsWith p (t ++ u) = endsWith p u := by
  obtain ⟨c, hc⟩ := Option.ne_none_iff_exists'.1 (mt List.getLast?_eq_none_iff.1 h)
  simp [endsWith, hc]

theorem endsWith_of_imp {p q : Char → Bool} (h : ∀ c, p c = true → q c = true) {t : Text}
    (ht : endsWith p t = true) : endsWith q t = true := by
  simp only [endsWith, Option.any_eq_true] at ht ⊢
  obtain ⟨c, hc, hp⟩ := ht
  exact ⟨c, hc, h c hp⟩

theorem isDigit_of_mem_digitRun {base : Base} {t : Text} {c : Char} (h : c ∈ (digitRun base t).1) :
    c = '_' ∨ base.isDigit c = true := by
  have hall : ∀ c ∈ (digitRun base t).1, (c = '_' || base.isDigit c) = true := by
    rw [digitRun_eq_spanBy]
    refine Text.forall_mem_spanBy (fun c t h => ?_) t
    simp only [opensDigitRun, opensWith_cons, opensPair, Bool.or_eq_true, Bool.and_eq_true] at h ⊢
    exact h.elim .inr fun hpair => .inl hpair.1
  simpa using hall c h

/-- A run ends with a digit, because it goes on behind each of its separators. -/
theorem endsWith_digitRun {base : Base} {t : Text} (h : (digitRun base t).1 ≠ []) :
    endsWith base.isDigit (digitRun base t).1 = true := by
  obtain ⟨u, c, hrun⟩ := (List.eq_nil_or_concat _).resolve_left h
  rw [List.concat_eq_append] at hrun
  have hc : base.isDigit c = true := by
    refine (isDigit_of_mem_digitRun (t := t) (by simp [hrun])).resolve_left ?_
    intro hc
    subst hc
    exact absurd (digitRun_separator hrun).1 (by simp [opensWith])
  simp [hrun, endsWith, hc]

/-! ## What stands behind a run -/

theorem isDigit_of_ne_binary {base : Base} (h : base ≠ .binary) {c : Char} (hc : c.isDigit = true) :
    base.isDigit c = true := by
  cases base with
  | binary => exact absurd rfl h
  | decimal => exact hc
  | hexadecimal => simp [Base.isDigit, hc]

theorem isDigit_of_isStrayDigit {c : Char} (h : Literal.isStrayDigit c = true) :
    c.isDigit = true := by
  simp only [Literal.isStrayDigit, Bool.and_eq_true, decide_eq_true_eq, Char.isDigit, Char.le_def,
    UInt32.le_iff_toNat_le] at h ⊢
  exact ⟨Nat.le_trans (by decide) h.1, h.2⟩

/-- **No decimal digit stands behind an integer run**, in any base. -/
theorem opensWith_isDigit_integerRun (base : Base) (t : Text) :
    opensWith Char.isDigit (integerRun base t).2 = false := by
  by_cases hb : base = .binary
  · simp only [integerRun, hb, if_true]
    exact opensWith_dropWhile _ _
  · exact opensWith_eq_false_of_imp (fun c => isDigit_of_ne_binary hb)
      (opensWith_rest_integerRun base t)

theorem opensWith_isDigit_exponentRun {base : Base} {t r : Text} {e : ExponentSegment}
    (h : exponentRun base t = (some e, r)) : opensWith Char.isDigit r = false := by
  have hstop (t : Text) : opensWith Char.isDigit (digitRun .decimal t).2 = false :=
    opensWith_rest_digitRun .decimal t
  unfold exponentRun at h
  split at h
  · split at h
    · split at h <;> simp only [Prod.mk.injEq] at h <;> exact h.2 ▸ hstop _
    · cases h
  · cases h

/-- Behind a fraction there is a decimal digit only if base two does not have it. -/
theorem opensWith_fractionRun {base : Base} {t r ds : Text} (h : fractionRun base t = (some ds, r))
    (hr : opensWith Char.isDigit r = true) :
    base = .binary ∧ opensWith Literal.isStrayDigit r = true := by
  have hstop : opensWith base.isDigit r = false := by
    unfold fractionRun at h
    split at h
    · split at h
      · simp only [Prod.mk.injEq] at h
        exact h.2 ▸ opensWith_rest_digitRun base _
      · cases h
    · cases h
  cases r with
  | nil => cases hr
  | cons c r =>
    rw [opensWith_cons] at hr hstop ⊢
    by_cases hb : base = .binary
    · subst hb
      exact ⟨rfl, (isDigit_binary_or_stray hr).resolve_left (by simp [hstop])⟩
    · simp [isDigit_of_ne_binary hb hr] at hstop

/-! ## Numbers -/

namespace Segments

variable {n : Segments} {rest : Text}

/-- A number in base two that ends with its fraction, before a digit that base two does not have. -/
structure CutBefore (n : Segments) (rest : Text) : Prop where
  base : n.base = .binary
  fraction : n.fraction.isSome = true
  exponent : n.exponent = none
  suffix : n.suffix = []
  stray : opensWith Literal.isStrayDigit rest = true

theorem suffix_eq_nil (hs : n.suffix ∈ suffixes) (h : endsWith Char.isDigit n.text = true) :
    n.suffix = [] := by
  have hall : ∀ s ∈ suffixes, s = [] ∨ endsWith Char.isDigit s = false := by decide
  by_cases hne : n.suffix = []
  · exact hne
  · rw [text_eq_stem, endsWith_append _ hne, (hall _ hs).resolve_left hne] at h
    cases h

theorem EndsBefore.opensWith_afterInteger (h : n.EndsBefore rest) :
    opensWith Char.isDigit (n.afterInteger ++ rest) = false := by
  have hstop := opensWith_isDigit_integerRun n.base (n.integer ++ (n.afterInteger ++ rest))
  rwa [h.integer] at hstop

theorem EndsBefore.cut (h : n.EndsBefore rest) (hs : n.suffix ∈ suffixes)
    (hlast : endsWith Char.isDigit n.text = true) (hnext : opensWith Char.isDigit rest = true) :
    n.CutBefore rest := by
  have hinteger := h.opensWith_afterInteger
  obtain ⟨-, -, hfraction, hexponent, -⟩ := h
  have hsuffix := suffix_eq_nil hs hlast
  cases he : n.exponent with
  | some e =>
    -- The digits of an exponent are decimal ones, and all of them are taken.
    rw [he, hsuffix] at hexponent
    have hstop := opensWith_isDigit_exponentRun hexponent
    rw [List.nil_append, hnext] at hstop
    cases hstop
  | none =>
    have hafter : n.afterFraction = [] := by simp [afterFraction, he, hsuffix]
    cases hf : n.fraction with
    | none => simp [afterInteger, hf, hafter, hnext] at hinteger
    | some ds =>
      rw [hf, hafter] at hfraction
      obtain ⟨hb, hstray⟩ := opensWith_fractionRun hfraction hnext
      exact ⟨hb, by simp [hf], he, hsuffix, hstray⟩

theorem CutBefore.endsWith (h : n.CutBefore rest) (hn : n.EndsBefore rest) :
    endsWith Char.isDigit n.text = true := by
  obtain ⟨ds, hf⟩ := Option.isSome_iff_exists.1 h.fraction
  have hfraction := hn.fraction
  rw [hf] at hfraction
  obtain ⟨s, hds, hopens⟩ := fractionRun_digits hfraction
  have hne : ds ≠ [] := by
    intro hnil
    simp [hnil, opensWith] at hopens
  have htext : n.text = n.basePrefix ++ n.integer ++ ['.'] ++ ds := by
    simp [text, hf, h.exponent, h.suffix]
  rw [htext, endsWith_append _ hne, hds]
  refine endsWith_of_imp (fun c hc => ?_) (endsWith_digitRun (hds ▸ hne))
  rw [h.base] at hc
  simp only [Base.isDigit, Bool.or_eq_true, decide_eq_true_eq] at hc
  rcases hc with rfl | rfl <;> decide

theorem CutBefore.opensWith (h : n.CutBefore rest) : opensWith Char.isDigit rest = true := by
  have hstray := h.stray
  cases rest with
  | nil => cases hstray
  | cons c rest => exact isDigit_of_isStrayDigit hstray

/-- **A number ends between two digits exactly if it is cut.** -/
theorem EndsBefore.cut_iff (h : n.EndsBefore rest) (hs : n.suffix ∈ suffixes) :
    endsWith Char.isDigit n.text = true ∧ opensWith Char.isDigit rest = true ↔
      n.CutBefore rest :=
  ⟨fun hboth => h.cut hs hboth.1 hboth.2, fun hcut => ⟨hcut.endsWith h, hcut.opensWith⟩⟩

/-! ## Digits that base two does not have -/

/-- What is wrong with a number in base two that has a digit too great for it: an exponent without
digits, if it has one, or else the digit. -/
def strayError (n : Segments) (digit : Char) : NumberError :=
  if n.exponent.any fun e => e.sign.isSome && e.digits.isEmpty then .malformedExponent
  else .invalidDigit digit .binary

theorem reading_of_stray {digit : Char} (hb : n.base = .binary)
    (hd : n.integer.find? Literal.isStrayDigit = some digit) (negative : Bool)
    (suffix : NumberSuffix) : n.reading negative suffix = .error (n.strayError digit) := by
  have hstray : n.strayDigit? = some digit := by
    rw [strayDigit?, if_pos hb, digits, List.find?_append]
    exact congrArg (Option.or · _) hd
  have hmem : digit ∈ n.digits := List.mem_append_left _ (List.mem_of_find?_eq_some hd)
  have hdigit : Base.isDigit .hexadecimal digit = true :=
    isDigit_of_ne_binary (by decide) (isDigit_of_isStrayDigit (List.find?_some hd))
  have hany : n.digits.any (Base.isDigit .hexadecimal) = true := List.any_eq_true.2 ⟨_, hmem, hdigit⟩
  rw [reading, strayError, hany, hstray]
  split <;> rfl

end Segments

/-! ## Sources -/

theorem Text.mem_diagnostics_of_error {source : Text} {k : Nat} {l : Lexeme} {e : NumberError}
    (hl : source.lexemes[k]? = some l) (htag : l.tag = .number) (he : readNumber l.text = .error e) :
    ⟨Span.ofLength (size ((source.lexemes.take k).flatMap Lexeme.text)) l.text.size,
      .malformedNumber e⟩ ∈ source.tokenize.diagnostics := by
  have heval := Lexeme.evaluateAll_getElem? 0 source.lexemes k
  rw [hl, Option.map_some, Nat.zero_add] at heval
  rw [tokenize_eq]
  refine List.mem_flatMap.2 ⟨_, List.mem_of_getElem? heval, ?_⟩
  simp [Lexeme.evaluate, htag, Evaluation.ofLexeme, Evaluation.number, he]

/-- **A number of a source is cut between two digits in one place only**, behind the fraction of base
two. Behind an integer run no decimal digit is left, and one that base two does not have is
reported. -/
theorem Text.digits_cut_iff {source : Text} {k : Nat} {l : Lexeme}
    (hl : source.lexemes[k]? = some l) (htag : l.tag = .number) :
    ∃ (rest : Text) (n : Segments) (negative : Bool),
      (source.lexemes.take k).flatMap Lexeme.text ++ (l.text ++ rest) = source ∧
      l.text = n.signed negative ∧ Segments.scan (n.text ++ rest) = (n, rest) ∧
      (endsWith Char.isDigit l.text = true ∧ opensWith Char.isDigit rest = true ↔
        n.CutBefore rest) ∧
      opensWith Char.isDigit (n.afterInteger ++ rest) = false ∧
      ∀ digit, n.base = .binary → n.integer.find? Literal.isStrayDigit = some digit →
        ⟨Span.ofLength (size ((source.lexemes.take k).flatMap Lexeme.text)) l.text.size,
          .malformedNumber (n.strayError digit)⟩ ∈ source.tokenize.diagnostics := by
  obtain ⟨rest, n, negative, hsource, htext, hproper, hstops⟩ := exists_number_of_getElem? hl htag
  have hends := Segments.scan_eq_iff.1 hstops
  have hlast : endsWith Char.isDigit l.text = endsWith Char.isDigit n.text := by
    cases negative with
    | false => rw [htext]; rfl
    | true =>
      have hne : n.text ≠ [] := by
        intro hnil
        have hopens := hproper.1
        rw [hnil] at hopens
        cases hopens
      rw [htext]
      exact endsWith_append ['-'] hne
  refine ⟨rest, n, negative, hsource, htext, hstops, ?_, ?_, fun digit hb hd => ?_⟩
  · rw [hlast]
    exact hends.cut_iff (Segments.wellFormed_of_scan hproper.2).suffix
  · exact hends.opensWith_afterInteger
  · obtain ⟨suffix, -, hsplit⟩ := Form.split_eq hproper
    refine mem_diagnostics_of_error hl htag ?_
    rw [readNumber, htext, hsplit, Segments.reading_of_stray hb hd]
    rfl

/-- A fraction in base two before a digit that base two does not have. -/
theorem Text.digits_cut_iff_binary :
    (Text.lexemes ['0', 'b', '1', '.', '0', '2'])[0]? =
        some ⟨.number, ['0', 'b', '1', '.', '0']⟩ ∧
      ∃ (rest : Text) (n : Segments) (negative : Bool),
        ['0', 'b', '1', '.', '0'] ++ rest = ['0', 'b', '1', '.', '0', '2'] ∧
        ['0', 'b', '1', '.', '0'] = n.signed negative ∧
        Segments.scan (n.text ++ rest) = (n, rest) ∧ n.CutBefore rest := by
  have hl : (Text.lexemes ['0', 'b', '1', '.', '0', '2'])[0]? =
      some ⟨.number, ['0', 'b', '1', '.', '0']⟩ := by decide +kernel
  obtain ⟨rest, n, negative, hsource, htext, hscan, hcut, -⟩ := digits_cut_iff hl rfl
  have hrest : rest = ['2'] := by simpa using hsource
  refine ⟨hl, rest, n, negative, hsource, htext, hscan, hcut.1 ⟨by decide, ?_⟩⟩
  rw [hrest]
  decide

/-- There a number ends with a digit, and another digit follows. -/
theorem Text.not_forall_uncut :
    ¬∀ (source : Text) (k : Nat) (l : Lexeme) (rest : Text),
      source.lexemes[k]? = some l → l.tag = .number →
      (source.lexemes.take k).flatMap Lexeme.text ++ (l.text ++ rest) = source →
      endsWith Char.isDigit l.text = true → opensWith Char.isDigit rest = false := by
  intro h
  have hl : (Text.lexemes ['0', 'b', '1', '.', '0', '2'])[0]? =
      some ⟨.number, ['0', 'b', '1', '.', '0']⟩ := by decide +kernel
  exact absurd (h _ 0 _ ['2'] hl rfl rfl (by decide)) (by decide)

end LesTokens
