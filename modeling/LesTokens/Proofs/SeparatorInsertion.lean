/-
More separators in a number. A separator that is put between two digits of a run
(`Segments.Regrouped`) changes neither what is scanned nor what is read. The run goes on over it,
because a digit follows it, and the parts before the run end where they did, because none of them
looks further than the first character of the run (`Segments.Regrouped.endsBefore`). What is read of a
number is read from the values of its digits, so that its separators can as well be left out
(`Literal.value_withoutSeparators`). The one run that does not go on over a separator is that of
digits that base two does not have, and these are refused.

**`Text.tokenize_regrouped`**: a number with one more separator is one token, with the same value.
-/
import LesTokens.Proofs.DigitBoundaries
import LesTokens.Proofs.TokenKinds

namespace LesTokens

/-! ## Runs -/

/-- A run without its separators. -/
def Text.unseparated (run : Text) : Text := run.filter (· ≠ '_')

/-- A run, and the same run with one more separator, between two of its digits. -/
inductive Base.Regroups (base : Base) : Text → Text → Prop
  | between {c d : Char} (hc : base.isDigit c = true) (hd : base.isDigit d = true) (u v : Text) :
    Regroups base (u ++ c :: d :: v) (u ++ c :: '_' :: d :: v)

namespace Base.Regroups

variable {base : Base} {run run' : Text}

theorem exists_cons (h : base.Regroups run run') : ∃ c t t', run = c :: t ∧ run' = c :: t' := by
  obtain ⟨hc, hd, u, v⟩ := h
  cases u with
  | nil => exact ⟨_, _, _, rfl, rfl⟩
  | cons x u => exact ⟨x, _, _, rfl, rfl⟩

theorem opensWith_eq (h : base.Regroups run run') (p : Char → Bool) (r : Text) :
    opensWith p (run' ++ r) = opensWith p (run ++ r) := by
  obtain ⟨c, t, t', rfl, rfl⟩ := h.exists_cons
  rfl

theorem ahead (h : base.Regroups run run') (a : Char) (r : Text) :
    Ahead (a :: (run ++ r)) (a :: (run' ++ r)) ∧ Ahead (a :: (run' ++ r)) (a :: (run ++ r)) := by
  obtain ⟨c, t, t', rfl, rfl⟩ := h.exists_cons
  exact ⟨.of_two a c _ _, .of_two a c _ _⟩

theorem any_eq (h : base.Regroups run run') {p : Char → Bool} (hp : p '_' = false) :
    run'.any p = run.any p := by
  obtain ⟨hc, hd, u, v⟩ := h
  simp [hp]

theorem find?_eq (h : base.Regroups run run') {p : Char → Bool} (hp : p '_' = false) :
    run'.find? p = run.find? p := by
  obtain ⟨hc, hd, u, v⟩ := h
  simp [List.find?_append, List.find?_cons, hp]

theorem unseparated_eq (h : base.Regroups run run') : run'.unseparated = run.unseparated := by
  obtain ⟨hc, hd, u, v⟩ := h
  simp [Text.unseparated, List.filter_cons]

theorem append (h : base.Regroups run run') (a b : Text) :
    base.Regroups (a ++ (run ++ b)) (a ++ (run' ++ b)) := by
  obtain ⟨hc, hd, u, v⟩ := h
  simpa using between hc hd (a ++ u) (v ++ b)

theorem size_eq (h : base.Regroups run run') : run'.size = run.size + 1 := by
  obtain ⟨hc, hd, u, v⟩ := h
  have hsize : '_'.utf8Size = 1 := by decide
  simp only [Text.size_append, Text.size_cons, hsize]
  omega

/-- **A run goes on over a separator between two of its digits.** -/
theorem digitRun_eq (h : base.Regroups run run') {r : Text}
    (hrun : digitRun base (run ++ r) = (run, r)) : digitRun base (run' ++ r) = (run', r) := by
  rw [digitRun_eq_spanBy] at hrun ⊢
  obtain ⟨hc, hd, u, v⟩ := h
  rename_i c d
  induction u with
  | nil =>
    have hrest := (Text.spanBy_cons_append.1 hrun).2
    refine Text.spanBy_cons_append.2 ⟨by simp [opensDigitRun, opensWith, hc], ?_⟩
    exact Text.spanBy_cons_append.2 ⟨by simp [opensDigitRun, opensPair, opensWith, hd], hrest⟩
  | cons x u ih =>
    obtain ⟨hx, hrest⟩ := Text.spanBy_cons_append.1 hrun
    refine Text.spanBy_cons_append.2 ⟨?_, ih hrest⟩
    -- What a run looks at is a character and the one behind it, and these are the same.
    cases u <;> exact hx

theorem opensNumber (h : base.Regroups run run') {r : Text}
    (hopens : opensNumber (run ++ r) = true) : LesTokens.opensNumber (run' ++ r) = true := by
  obtain ⟨hc, hd, u, v⟩ := h
  rw [LesTokens.opensNumber, opensFraction_eq] at hopens ⊢
  rcases u with - | ⟨x, - | ⟨y, u⟩⟩
  · -- A digit is no point, so it is by itself what a number opens with.
    rcases Bool.or_eq_true_iff.1 hopens with hdigit | hfraction
    · exact Bool.or_eq_true_iff.2 (.inl hdigit)
    · have hpoint := (Bool.and_eq_true_iff.1 hfraction).1
      rw [of_decide_eq_true hpoint] at hc
      cases base <;> cases hc
  · exact hopens
  · exact hopens

end Base.Regroups

theorem fractionRun_eq_some_iff {base : Base} {t ds r : Text} :
    fractionRun base ('.' :: t) = (some ds, r) ↔
      opensWith base.isDigit t = true ∧ digitRun base t = (ds, r) := by
  rw [fractionRun]
  split
  · rename_i h
    simp [h, Prod.ext_iff]
  · rename_i h
    simp [h]

theorem exponentRun_eq_some_iff_signed {base : Base} {marker c : Char} {t ds r : Text} :
    exponentRun base (marker :: c :: t) = (some ⟨marker, some c, ds⟩, r) ↔
      isExponentMarker base marker = true ∧ isSign c = true ∧ digitRun .decimal t = (ds, r) := by
  rw [exponentRun]
  cases isExponentMarker base marker <;> cases hs : isSign c <;> cases c.isDigit <;>
    simp [Prod.ext_iff]

theorem exponentRun_eq_some_iff_unsigned {base : Base} {marker : Char} {t ds r : Text} :
    exponentRun base (marker :: t) = (some ⟨marker, none, ds⟩, r) ↔
      isExponentMarker base marker = true ∧ opensWith isSign t = false ∧
      opensWith Char.isDigit t = true ∧ digitRun .decimal t = (ds, r) := by
  cases t with
  | nil => simp [exponentRun, opensWith]
  | cons c t =>
    rw [exponentRun, opensWith_cons, opensWith_cons]
    cases isExponentMarker base marker <;> cases isSign c <;> cases c.isDigit <;>
      simp [Prod.ext_iff]

theorem digitRun_of_integerRun {base : Base} {t u r : Text} (h : integerRun base t = (u, r))
    (hstray : base = .binary → u.find? Literal.isStrayDigit = none) :
    digitRun base t = (u, r) := by
  rcases hd : digitRun base t with ⟨digits, rest⟩
  have hstop := opensWith_rest_digitRun base t
  unfold integerRun at h
  rw [hd] at h hstop
  dsimp only at h hstop
  split at h
  · rename_i hb
    subst hb
    obtain ⟨rfl, rfl⟩ := Prod.mk.inj h
    have hrest : opensWith Char.isDigit rest = false := by
      cases rest with
      | nil => rfl
      | cons c rest =>
        rw [opensWith_cons, Bool.eq_false_iff]
        intro hc
        have hfind := List.find?_eq_none.1 (hstray rfl) c (by simp [hc])
        exact (isDigit_binary_or_stray hc).elim (by simpa [opensWith_cons] using hstop) hfind
    obtain ⟨htake, hdrop⟩ := takeWhile_of_not_opensWith hrest
    rw [htake, hdrop, List.append_nil]
  · exact h

theorem integerRun_of_digitRun {base : Base} {t u r : Text} (h : digitRun base t = (u, r))
    (hr : opensWith Char.isDigit r = false) : integerRun base t = (u, r) := by
  obtain ⟨htake, hdrop⟩ := takeWhile_of_not_opensWith hr
  unfold integerRun
  rw [h]
  dsimp only
  rw [htake, hdrop, List.append_nil, ite_self]

/-! ## Numbers -/

namespace Segments

/-- A number, and the same number with one more separator, between two digits of one of its runs. -/
inductive Regrouped (n : Segments) : Segments → Prop
  | integer {run : Text} (h : n.base.Regroups n.integer run) :
    Regrouped n { n with integer := run }
  | fraction {ds run : Text} (hf : n.fraction = some ds) (h : n.base.Regroups ds run) :
    Regrouped n { n with fraction := some run }
  | exponent {e : ExponentSegment} {run : Text} (he : n.exponent = some e)
    (h : Base.decimal.Regroups e.digits run) :
    Regrouped n { n with exponent := some { e with digits := run } }

variable {n n' : Segments} {rest : Text}

theorem text_eq_append (n : Segments) :
    n.text = n.basePrefix ++ (n.integer ++ n.afterInteger) := by
  simp [text, afterInteger, afterFraction]

theorem EndsBefore.integer_replace (h : n.EndsBefore rest) {behind : Text}
    (ha : Ahead (n.afterInteger ++ rest) behind) :
    scanBase (n.basePrefix ++ (n.integer ++ behind)) =
        (n.base, n.basePrefix, n.integer ++ behind) ∧
      integerRun n.base (n.integer ++ behind) = (n.integer, behind) :=
  ⟨scanBase_replace h.base (ha.append n.integer), integerRun_replace h.integer ha⟩

/-- The prefix of a base is no part of a run, and a run with a separator has no other one. -/
theorem scanBase_regroups {base : Base} {run run' pre r : Text} (h : base.Regroups run run')
    (hb : scanBase (pre ++ (run ++ r)) = (base, pre, run ++ r)) :
    scanBase (pre ++ (run' ++ r)) = (base, pre, run' ++ r) := by
  rcases scanBase_cases (pre ++ (run ++ r)) with ⟨c, s, ht, base', hs⟩ | hnone
  · rw [ht, hs, Prod.mk.injEq, Prod.mk.injEq] at hb
    obtain ⟨rfl, rfl, -⟩ := hb
    exact hs _
  · rw [scanBase_of_not hnone, Prod.mk.injEq, Prod.mk.injEq] at hb
    obtain ⟨rfl, rfl, -⟩ := hb
    refine scanBase_of_not ?_
    obtain ⟨hc, hd, u, v⟩ := h
    rcases u with - | ⟨x, - | ⟨y, u⟩⟩
    · simp [opensPair, opensWith, isBaseLetter]
    · exact hnone
    · exact hnone

theorem EndsBefore.regroup_integer (h : n.EndsBefore rest) (hstray : n.strayDigit? = none)
    {run : Text} (hr : n.base.Regroups n.integer run) :
    EndsBefore { n with integer := run } rest := by
  have hbase := h.base
  rw [text_eq_append, List.append_assoc, List.append_assoc] at hbase
  constructor
  case base =>
    rw [text_eq_append, List.append_assoc, List.append_assoc]
    exact scanBase_regroups hr hbase
  case integer =>
    have hrun := digitRun_of_integerRun h.integer fun hb => ?_
    · exact integerRun_of_digitRun (hr.digitRun_eq hrun) h.opensWith_afterInteger
    · rw [strayDigit?, if_pos hb, digits, List.find?_append, Option.or_eq_none_iff] at hstray
      exact hstray.1
  case fraction => exact h.fraction
  case exponent => exact h.exponent
  case suffix => exact h.suffix

theorem ahead_fraction {ds run : Text} (hf : n.fraction = some ds) (hr : n.base.Regroups ds run)
    (r : Text) :
    Ahead (n.afterInteger ++ r) (afterInteger { n with fraction := some run } ++ r) ∧
      Ahead (afterInteger { n with fraction := some run } ++ r) (n.afterInteger ++ r) := by
  simpa [afterInteger, afterFraction, hf] using hr.ahead '.' (n.afterFraction ++ r)

theorem EndsBefore.regroup_fraction (h : n.EndsBefore rest) {ds run : Text}
    (hf : n.fraction = some ds) (hr : n.base.Regroups ds run) :
    EndsBefore { n with fraction := some run } rest := by
  obtain ⟨hbase, hinteger⟩ := h.integer_replace (ahead_fraction hf hr rest).1
  have hafter : n.afterInteger ++ rest = '.' :: (ds ++ (n.afterFraction ++ rest)) := by
    simp [afterInteger, hf]
  have hafter' : afterInteger { n with fraction := some run } ++ rest =
      '.' :: (run ++ (n.afterFraction ++ rest)) := by
    simp [afterInteger, afterFraction]
  have hfraction := h.fraction
  rw [hafter, hf, fractionRun_eq_some_iff] at hfraction
  constructor
  case base =>
    rw [text_eq_append, List.append_assoc, List.append_assoc]
    exact hbase
  case integer => exact hinteger
  case fraction =>
    rw [hafter', fractionRun_eq_some_iff, hr.opensWith_eq]
    exact ⟨hfraction.1, hr.digitRun_eq hfraction.2⟩
  case exponent => exact h.exponent
  case suffix => exact h.suffix

theorem ahead_exponent {e : ExponentSegment} {run : Text} (he : n.exponent = some e)
    (hr : Base.decimal.Regroups e.digits run) (r : Text) :
    Ahead (n.afterFraction ++ r)
        (afterFraction { n with exponent := some { e with digits := run } } ++ r) ∧
      Ahead (afterFraction { n with exponent := some { e with digits := run } } ++ r)
        (n.afterFraction ++ r) := by
  obtain ⟨marker, sign, digits⟩ := e
  cases sign with
  | none =>
    simpa [afterFraction, he, ExponentSegment.text] using hr.ahead marker (n.suffix ++ r)
  | some c =>
    obtain ⟨hahead, hahead'⟩ := hr.ahead c (n.suffix ++ r)
    simpa [afterFraction, he, ExponentSegment.text] using
      And.intro (hahead.cons marker) (hahead'.cons marker)

theorem exponentRun_regroups {base : Base} {e : ExponentSegment} {run r : Text}
    (hr : Base.decimal.Regroups e.digits run)
    (h : exponentRun base (e.text ++ r) = (some e, r)) :
    exponentRun base (ExponentSegment.text { e with digits := run } ++ r) =
      (some { e with digits := run }, r) := by
  obtain ⟨marker, sign, digits⟩ := e
  have htext (ds : Text) : ExponentSegment.text ⟨marker, sign, ds⟩ ++ r =
      marker :: (sign.toList ++ (ds ++ r)) := by
    simp [ExponentSegment.text]
  rw [htext] at h ⊢
  cases sign with
  | some c =>
    obtain ⟨hmarker, hsign, hrun⟩ := exponentRun_eq_some_iff_signed.1 h
    exact exponentRun_eq_some_iff_signed.2 ⟨hmarker, hsign, hr.digitRun_eq hrun⟩
  | none =>
    obtain ⟨hmarker, hsign, hdigit, hrun⟩ := exponentRun_eq_some_iff_unsigned.1 h
    have hsign' := (hr.opensWith_eq isSign r).trans hsign
    have hdigit' := (hr.opensWith_eq Char.isDigit r).trans hdigit
    exact exponentRun_eq_some_iff_unsigned.2 ⟨hmarker, hsign', hdigit', hr.digitRun_eq hrun⟩

theorem EndsBefore.regroup_exponent (h : n.EndsBefore rest) {e : ExponentSegment} {run : Text}
    (he : n.exponent = some e) (hr : Base.decimal.Regroups e.digits run) :
    EndsBefore { n with exponent := some { e with digits := run } } rest := by
  have hahead := (ahead_exponent he hr rest).1
  have hbehind := hahead.append ((n.fraction.map ('.' :: ·)).getD [])
  rw [← List.append_assoc, ← List.append_assoc] at hbehind
  obtain ⟨hbase, hinteger⟩ := h.integer_replace hbehind
  have hfraction := fractionRun_replace h.fraction hahead
  rw [← List.append_assoc] at hfraction
  have hafter : n.afterFraction ++ rest = e.text ++ (n.suffix ++ rest) := by
    simp [afterFraction, he]
  have hafter' : afterFraction { n with exponent := some { e with digits := run } } ++ rest =
      ExponentSegment.text { e with digits := run } ++ (n.suffix ++ rest) := by
    simp [afterFraction]
  have hexponent := h.exponent
  rw [hafter, he] at hexponent
  constructor
  case base =>
    rw [text_eq_append, List.append_assoc, List.append_assoc]
    exact hbase
  case integer => exact hinteger
  case fraction => exact hfraction
  case exponent =>
    rw [hafter']
    exact exponentRun_regroups hr hexponent
  case suffix => exact h.suffix

/-- **A number with one more separator ends where it did.** -/
theorem Regrouped.endsBefore (hn : n.Regrouped n') (h : n.EndsBefore rest)
    (hstray : n.strayDigit? = none) : n'.EndsBefore rest := by
  cases hn with
  | integer hr => exact h.regroup_integer hstray hr
  | fraction hf hr => exact h.regroup_fraction hf hr
  | exponent he hr => exact h.regroup_exponent he hr

theorem Regrouped.opensNumber (hn : n.Regrouped n') (h : n.EndsBefore [])
    (hopens : opensNumber n.text = true) : LesTokens.opensNumber n'.text = true := by
  rw [text_eq_append] at hopens ⊢
  cases hn with
  | integer hr =>
    have hbase := scanBase_prefix (n.text ++ [])
    rw [h.base] at hbase
    rcases hbase with ⟨hnil, -⟩ | ⟨c, -, hpre⟩
    · rw [show n.basePrefix = [] from hnil] at hopens ⊢
      exact hr.opensNumber hopens
    · rw [show n.basePrefix = ['0', c] from hpre]
      rfl
  | fraction hf hr =>
    have hahead := (ahead_fraction hf hr []).2.append (n.basePrefix ++ n.integer)
    simp only [List.append_nil, List.append_assoc] at hahead
    exact hahead.opensNumber_of hopens
  | exponent he hr =>
    have hahead := (ahead_exponent he hr []).2.append
      (n.basePrefix ++ n.integer ++ (n.fraction.map ('.' :: ·)).getD [])
    simp only [List.append_nil, List.append_assoc] at hahead
    exact hahead.opensNumber_of hopens

end Segments

/-! ## Values -/

@[simp] theorem digitValues_unseparated (run : Text) :
    digitValues run.unseparated = digitValues run := by
  induction run with
  | nil => rfl
  | cons c run ih =>
    unfold digitValues Text.unseparated at ih ⊢
    rw [List.filter_cons]
    split
    · rw [List.filterMap_cons, List.filterMap_cons, ih]
    · rename_i hc
      obtain rfl : c = '_' := by simpa using hc
      exact ih

@[simp] theorem Decimal.decimalDigits_unseparated (run : Text) :
    decimalDigits run.unseparated = decimalDigits run := by
  unfold decimalDigits Text.unseparated
  rw [List.filter_filter]
  refine congrArg _ (List.filter_congr fun c _ => ?_)
  by_cases hc : c = '_'
  · subst hc
    rfl
  · simp [hc]

namespace Literal

/-- A number with its separators left out. -/
def withoutSeparators (l : Literal) : Literal where
  negative := l.negative
  base := l.base
  integer := l.integer.unseparated
  fraction := l.fraction.map Text.unseparated
  exponent := l.exponent.map fun e => { e with digits := e.digits.unseparated }
  suffix := l.suffix

variable (l : Literal)

@[simp] theorem withoutSeparators_negative : l.withoutSeparators.negative = l.negative := rfl

@[simp] theorem withoutSeparators_base : l.withoutSeparators.base = l.base := rfl

@[simp] theorem withoutSeparators_suffix : l.withoutSeparators.suffix = l.suffix := rfl

@[simp] theorem withoutSeparators_integer :
    l.withoutSeparators.integer = l.integer.unseparated := rfl

@[simp] theorem withoutSeparators_fractionDigits :
    l.withoutSeparators.fractionDigits = l.fractionDigits.unseparated := by
  unfold fractionDigits withoutSeparators
  cases l.fraction <;> rfl

@[simp] theorem withoutSeparators_isFloating : l.withoutSeparators.isFloating = l.isFloating := by
  simp [withoutSeparators, isFloating]

@[simp] theorem withoutSeparators_magnitude : l.withoutSeparators.magnitude = l.magnitude := by
  simp [magnitude]

@[simp] theorem withoutSeparators_allDigits : l.withoutSeparators.allDigits = l.allDigits := by
  simp [allDigits]

@[simp] theorem withoutSeparators_exponentValue :
    l.withoutSeparators.exponentValue = l.exponentValue := by
  unfold exponentValue withoutSeparators
  cases l.exponent <;> simp

@[simp] theorem withoutSeparators_boundedExponent :
    l.withoutSeparators.boundedExponent = l.boundedExponent := by
  unfold boundedExponent withoutSeparators
  cases l.exponent <;> simp

theorem integerValue_withoutSeparators :
    l.withoutSeparators.integerValue = l.integerValue := by
  unfold integerValue
  rw [withoutSeparators_magnitude, withoutSeparators_negative, withoutSeparators_suffix]

theorem wideExponent_withoutSeparators :
    l.withoutSeparators.wideExponent = l.wideExponent := by
  unfold wideExponent
  rw [withoutSeparators_exponentValue]

theorem radixFloat_withoutSeparators : l.withoutSeparators.radixFloat = l.radixFloat := by
  unfold radixFloat
  rw [wideExponent_withoutSeparators, withoutSeparators_base, withoutSeparators_fractionDigits,
    withoutSeparators_allDigits, digitValues_unseparated]

theorem floatMagnitude_withoutSeparators :
    l.withoutSeparators.floatMagnitude = l.floatMagnitude := by
  unfold floatMagnitude decimalFloat
  rw [radixFloat_withoutSeparators, withoutSeparators_base, withoutSeparators_fractionDigits,
    withoutSeparators_allDigits, withoutSeparators_boundedExponent, digitValues_unseparated]

theorem floatValue_withoutSeparators : l.withoutSeparators.floatValue = l.floatValue := by
  unfold floatValue
  rw [floatMagnitude_withoutSeparators, withoutSeparators_negative, withoutSeparators_suffix]

theorem decimalValue_withoutSeparators : l.withoutSeparators.decimalValue = l.decimalValue := by
  unfold decimalValue decimal?
  rw [wideExponent_withoutSeparators, radixFloat_withoutSeparators, withoutSeparators_base,
    withoutSeparators_negative, withoutSeparators_integer, withoutSeparators_fractionDigits]
  simp only [Decimal.ofDigits?, Decimal.decimalDigits_unseparated]

/-- **Separators do not matter to the value of a number.** -/
theorem value_withoutSeparators : l.withoutSeparators.value = l.value := by
  unfold value fractionalValue
  rw [withoutSeparators_isFloating, withoutSeparators_suffix, integerValue_withoutSeparators,
    floatValue_withoutSeparators, decimalValue_withoutSeparators]

end Literal

namespace Segments

variable {n n' : Segments}

theorem Regrouped.text (hn : n.Regrouped n') : ∃ base : Base, base.Regroups n.text n'.text := by
  cases hn with
  | integer hr =>
    refine ⟨n.base, ?_⟩
    rw [text_eq_append, text_eq_append]
    exact hr.append n.basePrefix n.afterInteger
  | fraction hf hr =>
    refine ⟨n.base, ?_⟩
    simpa [Segments.text, afterFraction, hf] using
      hr.append (n.basePrefix ++ n.integer ++ ['.']) n.afterFraction
  | @exponent e run he hr =>
    refine ⟨.decimal, ?_⟩
    have hfront := hr.append (n.basePrefix ++ n.integer ++ (n.fraction.map ('.' :: ·)).getD [] ++
      e.marker :: e.sign.toList) n.suffix
    simpa [Segments.text, ExponentSegment.text, he] using hfront

theorem Regrouped.size_eq (hn : n.Regrouped n') (negative : Bool) :
    Text.size (n'.signed negative) = Text.size (n.signed negative) + 1 := by
  obtain ⟨base, hr⟩ := hn.text
  have hsize := hr.size_eq
  cases negative with
  | false => exact hsize
  | true =>
    show Text.size ('-' :: n'.text) = Text.size ('-' :: n.text) + 1
    rw [Text.size_cons, Text.size_cons, hsize, Nat.add_assoc]

theorem Regrouped.digits (hn : n.Regrouped n') :
    n'.digits = n.digits ∨ n.base.Regroups n.digits n'.digits := by
  cases hn with
  | integer hr => exact .inr (hr.append [] _)
  | fraction hf hr =>
    refine .inr ?_
    simpa [Segments.digits, hf] using hr.append n.integer []
  | exponent => exact .inl rfl

/-- Nothing gets wrong with a number by one more separator, and its digits stay. -/
theorem Regrouped.exists_reading (hn : n.Regrouped n') {negative : Bool} {suffix : NumberSuffix}
    {l : Literal} (h : n.reading negative suffix = .ok l) :
    ∃ l', n'.reading negative suffix = .ok l' ∧ l'.withoutSeparators = l.withoutSeparators := by
  obtain ⟨hexponent, hdigits, hstray, rfl⟩ := reading_eq_ok_iff.1 h
  have hbase : n'.base = n.base := by cases hn <;> rfl
  refine ⟨_, reading_eq_ok_iff.2 ⟨?_, ?_, ?_, rfl⟩, ?_⟩
  · cases hn with
    | integer | fraction => exact hexponent
    | exponent he hr =>
      obtain ⟨c, t, t', -, rfl⟩ := hr.exists_cons
      simp
  · rcases hn.digits with heq | hr
    · rwa [heq]
    · rwa [hr.any_eq (not_isDigit_separator .hexadecimal)]
  · unfold strayDigit? at hstray ⊢
    rw [hbase]
    rcases hn.digits with heq | hr
    · rwa [heq]
    · rwa [hr.find?_eq (by decide)]
  · cases hn with
    | integer hr => simp [Literal.withoutSeparators, hr.unseparated_eq]
    | fraction hf hr => simp [Literal.withoutSeparators, hf, hr.unseparated_eq]
    | exponent he hr => simp [Literal.withoutSeparators, he, hr.unseparated_eq]

end Segments

theorem Form.exists_reading {n : Segments} {negative : Bool} {v : Value}
    (h : (Form.number n negative).Proper) (hv : readNumber (n.signed negative) = .ok v) :
    ∃ suffix l, NumberSuffix.ofText? n.suffix = some suffix ∧ n.reading negative suffix = .ok l ∧
      l.value = .ok v := by
  obtain ⟨suffix, hsuffix, hsplit⟩ := Form.split_eq h
  rw [readNumber, hsplit] at hv
  cases hreading : n.reading negative suffix with
  | error e =>
    rw [hreading] at hv
    cases hv
  | ok l =>
    rw [hreading] at hv
    exact ⟨suffix, l, hsuffix, hreading, hv⟩

/-- **A number with one more separator is still a number, with the same value.** -/
theorem Segments.Regrouped.proper {n n' : Segments} (hn : n.Regrouped n') {negative : Bool}
    {v : Value} (h : (Form.number n negative).Proper)
    (hv : readNumber (n.signed negative) = .ok v) :
    (Form.number n' negative).Proper ∧ readNumber (n'.signed negative) = .ok v := by
  obtain ⟨suffix, l, hsuffix, hreading, hvalue⟩ := Form.exists_reading h hv
  have hends : n.EndsBefore [] := scan_eq_iff.1 (by rw [List.append_nil, h.2])
  have hscan := scan_eq_iff.2 (hn.endsBefore hends (reading_eq_ok_iff.1 hreading).2.2.1)
  rw [List.append_nil] at hscan
  have hproper : (Form.number n' negative).Proper := ⟨hn.opensNumber hends h.1, hscan⟩
  refine ⟨hproper, ?_⟩
  obtain ⟨suffix', hsuffix', hsplit⟩ := Form.split_eq hproper
  have hsame : n'.suffix = n.suffix := by cases hn <;> rfl
  rw [hsame, hsuffix] at hsuffix'
  obtain rfl := Option.some.inj hsuffix'
  obtain ⟨l', hreading', hl⟩ := hn.exists_reading hreading
  rw [readNumber, hsplit, hreading']
  show l'.value = .ok v
  rw [← l'.value_withoutSeparators, hl, l.value_withoutSeparators, hvalue]

/-! ## Sources -/

theorem Text.exists_number_of_tokenize {t : Text} {token : Token}
    (h : t.tokenize = ⟨[token], []⟩) (hkind : token.kind = .number) :
    ∃ (n : Segments) (negative : Bool), t = n.signed negative ∧
      (Form.number n negative).Proper ∧ (negative = true → n.isUnsigned = false) ∧
      readNumber (n.signed negative) = .ok token.value := by
  rw [tokenize_eq, Tokenized.mk.injEq] at h
  obtain ⟨htokens, hdiagnostics⟩ := h
  obtain ⟨l, hl⟩ : ∃ l, t.lexemes = [l] := by
    have hlength := congrArg List.length htokens
    rw [List.length_map, Lexeme.length_evaluateAll] at hlength
    exact List.length_eq_one_iff.1 hlength
  have ht : l.text = t := by
    have hall := flatMap_text_lexemesAfter none t
    rw [← lexemes_eq, hl] at hall
    simpa using hall
  simp only [hl, Lexeme.evaluateAll, List.map_cons, List.map_nil, List.cons.injEq, and_true,
    List.flatMap_cons, List.flatMap_nil, List.append_nil] at htokens hdiagnostics
  have htag : l.tag = .number := by
    rw [← htokens] at hkind
    exact Evaluation.tag_eq_number_of_kind hkind
  have hmem : l ∈ t.lexemesAfter none := by
    rw [← lexemes_eq, hl]
    exact List.mem_singleton_self l
  obtain ⟨form, hproper, hform⟩ := exists_form_of_mem hmem
  obtain ⟨n, negative, rfl⟩ := Form.eq_number_of_tag hproper (hform ▸ htag)
  subst hform
  have htext : n.signed negative = t := ht
  refine ⟨n, negative, htext.symm, hproper, (Form.lexemes_number_iff hproper).1 ?_, ?_⟩
  · rw [htext, hl, ← htext]
    rfl
  · simp only [Lexeme.evaluate, Form.lexeme, Evaluation.ofLexeme, Evaluation.number,
      Evaluation.token] at htokens hdiagnostics
    cases hread : readNumber (n.signed negative) with
    | error e => simp [hread] at hdiagnostics
    | ok v =>
      rw [hread] at htokens
      rw [← htokens]

/-- **One more separator between two digits of a run is no difference.** A source of one number
without a fault is the text of a number, and with a separator between two digits of its integer run,
its fraction or its exponent it is still one number without a fault, with the same value. -/
theorem Text.tokenize_regrouped {t : Text} {token : Token} (h : t.tokenize = ⟨[token], []⟩)
    (hkind : token.kind = .number) :
    ∃ (n : Segments) (negative : Bool), t = n.signed negative ∧ Segments.scan n.text = (n, []) ∧
      ∀ n', n.Regrouped n' → (n'.signed negative).tokenize =
        ⟨[⟨.number, ⟨0, t.size + 1⟩, token.value⟩], []⟩ := by
  obtain ⟨n, negative, rfl, hproper, hsigned, hread⟩ := exists_number_of_tokenize h hkind
  refine ⟨n, negative, rfl, hproper.2, fun n' hn => ?_⟩
  obtain ⟨hproper', hread'⟩ := hn.proper hproper hread
  have hunsigned : n'.isUnsigned = n.isUnsigned := by cases hn <;> rfl
  rw [Form.tokenize_number hproper' (by rwa [hunsigned]) hread', hn.size_eq]

/-- A separator in the integer run, in the fraction and in the exponent of a decimal in base
sixteen. -/
theorem Text.tokenize_regrouped_hexadecimal :
    tokenize "-0x1f.80p+10m".toList =
      ⟨[⟨.number, ⟨0, 13⟩, .decimal ⟨32256, 0, true⟩⟩], []⟩ ∧
    ∀ t ∈ ["-0x1_f.80p+10m", "-0x1f.8_0p+10m", "-0x1f.80p+1_0m"],
      tokenize t.toList = ⟨[⟨.number, ⟨0, 14⟩, .decimal ⟨32256, 0, true⟩⟩], []⟩ := by
  let number : Segments := ⟨.hexadecimal, ['0', 'x'], ['1', 'f'], some ['8', '0'],
    some ⟨'p', some '+', ['1', '0']⟩, ['m']⟩
  have h : tokenize "-0x1f.80p+10m".toList =
      ⟨[⟨.number, ⟨0, 13⟩, .decimal ⟨32256, 0, true⟩⟩], []⟩ := by decide +kernel
  obtain ⟨n, negative, htext, hscan, hall⟩ := tokenize_regrouped h rfl
  cases negative with
  | false =>
    have htext : "-0x1f.80p+10m".toList = n.text := htext
    rw [← htext] at hscan
    have hrest : (Segments.scan "-0x1f.80p+10m".toList).2 = [] := congrArg Prod.snd hscan
    exact absurd hrest (by decide +kernel)
  | true =>
    have htext : "0x1f.80p+10m".toList = n.text := (List.cons.inj htext).2
    have hnumber : Segments.scan "0x1f.80p+10m".toList = (number, []) := by decide +kernel
    rw [← htext, hnumber] at hscan
    obtain rfl : number = n := (Prod.mk.inj hscan).1
    refine ⟨h, fun t ht => ?_⟩
    rcases (by simpa using ht : t = _ ∨ t = _ ∨ t = _) with rfl | rfl | rfl
    · exact hall _ (.integer (.between rfl rfl [] []))
    · exact hall _ (.fraction rfl (.between rfl rfl [] []))
    · exact hall _ (.exponent rfl (.between rfl rfl [] []))

end LesTokens
