/-
What a text that is taken apart as a number is made of. `Literal.split` reads a text from the front,
part by part, and either fails or gives each part to the literal (`Literal.Parts`); so a literal is
known by the texts that are left over on the way. Its digits are those of its base: a run has no
other digits but in base two, and there they are refused.

**`Literal.split_eq_ok_iff`**: a text is taken apart into a literal exactly if it has its parts.
-/
import LesTokens.Proofs.DecimalSpellings

namespace LesTokens.Literal

/-- The parts of a text, one after the other, and what is left of it behind each: the sign, the
base, the digits before the point, those behind it, the exponent and the suffix. -/
structure Parts (t : Text) (l : Literal) (unsigned body behind suffix : Text) : Prop where
  sign : splitSign t = (l.negative, unsigned)
  base : ∃ marker, scanBase unsigned = (l.base, marker, body)
  integer : body.takeWhile (isRunChar l.base) = l.integer
  fraction : splitFraction l.base (body.dropWhile (isRunChar l.base)) = (l.fraction, behind)
  exponent : splitExponent l.base behind = .ok (l.exponent, suffix)
  suffix : NumberSuffix.ofText? suffix = some l.suffix
  digits : checkDigits l.base (l.integer ++ l.fractionDigits) = .ok ()

variable {t : Text} {l : Literal}

/-- **A text is taken apart exactly into its parts.** -/
theorem split_eq_ok_iff :
    split t = .ok l ↔ ∃ unsigned body behind suffix, Parts t l unsigned body behind suffix := by
  constructor
  · intro h
    unfold split at h
    rcases hsign : splitSign t with ⟨negative, unsigned⟩
    rcases hbase : scanBase unsigned with ⟨base, marker, body⟩
    rcases hfraction : splitFraction base (body.dropWhile (isRunChar base)) with ⟨fraction, behind⟩
    simp only [hsign, hbase, hfraction] at h
    cases hexponent : splitExponent base behind with
    | error e =>
      rw [hexponent] at h
      cases h
    | ok parts =>
      obtain ⟨exponent, suffix⟩ := parts
      cases hsuffix : NumberSuffix.ofText? suffix with
      | none =>
        simp [hexponent, hsuffix, bind, Except.bind, throw, throwThe, MonadExceptOf.throw] at h
      | some kind =>
        cases hdigits : checkDigits base
            (body.takeWhile (isRunChar base) ++ fraction.getD []) with
        | error e =>
          simp [hexponent, hsuffix, hdigits, bind, Except.bind, pure, Except.pure] at h
        | ok u =>
          simp only [hexponent, hsuffix, hdigits, bind, Except.bind, pure, Except.pure,
            Except.ok.injEq] at h
          subst h
          exact ⟨unsigned, body, behind, suffix, hsign, ⟨marker, hbase⟩, rfl, hfraction, hexponent,
            hsuffix, hdigits⟩
  · rintro ⟨unsigned, body, behind, suffix, h⟩
    obtain ⟨marker, hbase⟩ := h.base
    have hdigits := h.digits
    unfold fractionDigits at hdigits
    unfold split
    simp only [h.sign, hbase, h.integer, h.fraction, h.exponent, h.suffix, hdigits, bind,
      Except.bind, pure, Except.pure]

/-! ## Runs -/

theorem splitFraction_cases {base : Base} {t behind : Text} {fraction : Option Text}
    (h : splitFraction base t = (fraction, behind)) :
    (∃ run, t = '.' :: run ∧ fraction = some (run.takeWhile (isRunChar base)) ∧
      behind = run.dropWhile (isRunChar base)) ∨
    opensWith (· = '.') t = false ∧ fraction = none ∧ behind = t := by
  unfold splitFraction at h
  split at h
  · rename_i run
    obtain ⟨rfl, rfl⟩ := Prod.mk.inj h
    exact .inl ⟨run, rfl, rfl, rfl⟩
  · rename_i hpoint
    obtain ⟨rfl, rfl⟩ := Prod.mk.inj h
    refine .inr ⟨?_, rfl, rfl⟩
    cases t with
    | nil => rfl
    | cons c t =>
      rw [opensWith_cons, decide_eq_false_iff_not]
      rintro rfl
      exact hpoint t rfl

theorem isRunChar_of_split (h : split t = .ok l) :
    ∀ c ∈ l.integer ++ l.fractionDigits, isRunChar l.base c = true := by
  obtain ⟨unsigned, body, behind, suffix, hparts⟩ := split_eq_ok_iff.1 h
  intro c hc
  rcases List.mem_append.1 hc with hc | hc
  · rw [← hparts.integer] at hc
    exact List.mem_takeWhile_imp hc
  · unfold fractionDigits at hc
    obtain ⟨run, -, hfraction, -⟩ | ⟨-, hfraction, -⟩ := splitFraction_cases hparts.fraction
    · rw [hfraction] at hc
      exact List.mem_takeWhile_imp hc
    · rw [hfraction] at hc
      cases hc

/-- **The digits of a number are those of its base.** -/
theorem isDigit_of_split (h : split t = .ok l) :
    ∀ c ∈ l.integer ++ l.fractionDigits, c = '_' ∨ l.base.isDigit c = true := by
  intro c hc
  have hrun := isRunChar_of_split h c hc
  obtain ⟨unsigned, body, behind, suffix, hparts⟩ := split_eq_ok_iff.1 h
  have hdigits := hparts.digits
  simp only [isRunChar, Bool.or_eq_true, decide_eq_true_eq] at hrun
  refine hrun.imp_right fun hdigit => ?_
  cases hbase : l.base with
  | hexadecimal => simpa [hbase] using hdigit
  | decimal => simpa [hbase, Base.isDigit] using hdigit
  | binary =>
    have hdigit : c.isDigit = true := by simpa [hbase] using hdigit
    rw [hbase] at hdigits
    unfold checkDigits at hdigits
    split at hdigits
    · cases hdigits
    · cases hfind : (l.integer ++ l.fractionDigits).find? isStrayDigit with
      | some digit =>
        rw [hfind] at hdigits
        cases hdigits
      | none =>
        exact (isDigit_binary_or_stray hdigit).resolve_right (List.find?_eq_none.1 hfind c hc)

theorem lt_radix_of_split (h : split t = .ok l) : ∀ d ∈ l.allDigits, d < l.base.radix := by
  intro d hd
  have hmem : d ∈ digitValues (l.integer ++ l.fractionDigits) := by
    rwa [digitValues, List.filterMap_append]
  obtain ⟨c, hc, hvalue⟩ := List.mem_filterMap.1 hmem
  rcases isDigit_of_split h c hc with rfl | hdigit
  · cases hvalue
  · exact Base.digitValue?_lt hdigit hvalue

theorem decimalDigits_eq_digitValues {run : Text}
    (h : ∀ c ∈ run, c = '_' ∨ c.isDigit = true) : Decimal.decimalDigits run = digitValues run := by
  induction run with
  | nil => rfl
  | cons c run ih =>
    have hrun := ih fun d hd => h d (List.mem_cons_of_mem c hd)
    rw [Decimal.decimalDigits, digitValues] at hrun ⊢
    rcases h c List.mem_cons_self with rfl | hc
    · exact hrun
    · rw [List.filter_cons_of_pos hc, List.map_cons, hrun,
        List.filterMap_cons_some (digitValue?_of_isDigit hc)]

end LesTokens.Literal
