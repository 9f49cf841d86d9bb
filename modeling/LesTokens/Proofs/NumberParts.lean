/-
A number taken apart a second time. The scanner makes a number out of segments, and `Literal.split`
takes the text of the number apart anew, by rules of its own: separators may stand anywhere in a
run, a run has the digits of its base or all decimal ones, and what is left is a suffix. It comes
to the same segments (`Segments.WellFormed.split_eq`), because a segment of a scanned number ends
where its run does (`Segments.WellFormed`), with the exponent, the suffix or the text.

**`Text.numbers_split`**: so for each number of a source, and a digit is only ever reported as
invalid in base two.
-/
import LesTokens.Proofs.Defects

namespace LesTokens

/-! ## Segments -/

namespace Segments

/-- What follows the fraction of a number. -/
def afterFraction (n : Segments) : Text :=
  (n.exponent.map ExponentSegment.text).getD [] ++ n.suffix

/-- What follows the integer run of a number. -/
def afterInteger (n : Segments) : Text :=
  (n.fraction.map ('.' :: ·)).getD [] ++ n.afterFraction

/-- The parts of a number that ends before a rest, one after another: each takes what it is made of
and leaves the parts behind it. -/
structure EndsBefore (n : Segments) (rest : Text) : Prop where
  base : scanBase (n.text ++ rest) =
    (n.base, n.basePrefix, n.integer ++ (n.afterInteger ++ rest))
  integer : integerRun n.base (n.integer ++ (n.afterInteger ++ rest)) =
    (n.integer, n.afterInteger ++ rest)
  fraction : fractionRun n.base (n.afterInteger ++ rest) = (n.fraction, n.afterFraction ++ rest)
  exponent : exponentRun n.base (n.afterFraction ++ rest) = (n.exponent, n.suffix ++ rest)
  suffix : suffixRun (n.suffix ++ rest) = (n.suffix, rest)

/-- **A number is scanned before a rest exactly if each of its parts ends where the next one
starts.** -/
theorem scan_eq_iff {n : Segments} {rest : Text} :
    scan (n.text ++ rest) = (n, rest) ↔ n.EndsBefore rest := by
  constructor
  · intro h
    rcases hb : scanBase (n.text ++ rest) with ⟨base, pre, t₁⟩
    rcases hi : integerRun base t₁ with ⟨integer, t₂⟩
    rcases hf : fractionRun base t₂ with ⟨fraction, t₃⟩
    rcases he : exponentRun base t₃ with ⟨exponent, t₄⟩
    rcases hs : suffixRun t₄ with ⟨suffix, t₅⟩
    have hn : n = ⟨base, pre, integer, fraction, exponent, suffix⟩ ∧ t₅ = rest := by
      simp only [scan, hb, hi, hf, he, hs, Prod.mk.injEq] at h
      exact ⟨h.1.symm, h.2⟩
    obtain ⟨rfl, rfl⟩ := hn
    have e₄ : suffix ++ t₅ = t₄ := by simpa [hs] using suffixRun_append t₄
    have e₃ := exponentRun_append base t₃
    have e₂ := fractionRun_append base t₂
    have e₁ : integer ++ t₂ = t₁ := by simpa [hi] using integerRun_append base t₁
    rw [he, ← e₄, ← List.append_assoc] at e₃
    rw [hf] at e₂
    have hfraction : afterFraction ⟨base, pre, integer, fraction, exponent, suffix⟩ ++ t₅ = t₃ := e₃
    have hinteger : afterInteger ⟨base, pre, integer, fraction, exponent, suffix⟩ ++ t₅ = t₂ := by
      rw [afterInteger, List.append_assoc, hfraction]
      exact e₂
    constructor
    case base => rw [hinteger, e₁, hb]
    case integer => rw [hinteger, e₁, hi]
    case fraction => rw [hinteger, hfraction, hf]
    case exponent => rw [hfraction, e₄, he]
    case suffix => rw [e₄, hs]
  · intro h
    simp only [scan, h.base, h.integer, h.fraction, h.exponent, h.suffix]

/-- A number as it is scanned: each segment is what it has to be, and no digit follows the last run
of digits. -/
structure WellFormed (n : Segments) : Prop where
  base : scanBase n.text = (n.base, n.basePrefix, n.integer ++ n.afterInteger)
  integer : ∀ c ∈ n.integer, Literal.isRunChar n.base c = true
  fraction : ∀ c ∈ n.fraction.getD [], Literal.isRunChar n.base c = true
  fractionEnds : opensWith n.base.isDigit n.afterFraction = false
  exponent : ∀ e, n.exponent = some e → e.WellFormed n.base
  suffix : n.suffix ∈ suffixes

theorem wellFormed_of_scan {n : Segments} (h : scan n.text = (n, [])) : n.WellFormed := by
  have hparts : n.EndsBefore [] := scan_eq_iff.1 (by rwa [List.append_nil])
  obtain ⟨hbase, hinteger, hfraction, hexponent, hsuffix⟩ := hparts
  simp only [List.append_nil] at hbase hinteger hfraction hexponent hsuffix
  have hends : opensWith n.base.isDigit n.afterInteger = false := by
    simpa [hinteger] using opensWith_rest_integerRun n.base (n.integer ++ n.afterInteger)
  constructor
  case base => exact hbase
  case integer =>
    simpa [hinteger] using isRunChar_of_mem_integerRun n.base (n.integer ++ n.afterInteger)
  case fraction => simpa [hfraction] using isRunChar_of_mem_fractionRun n.base n.afterInteger
  case fractionEnds => simpa [hfraction] using opensWith_rest_fractionRun hends
  case exponent =>
    intro e he
    rw [he] at hexponent
    exact exponentRun_wellFormed hexponent
  case suffix => simpa [hsuffix] using suffixRun_mem n.suffix

/-- The digits before and after the point, with their separators. -/
def digits (n : Segments) : Text := n.integer ++ n.fraction.getD []

/-- The first digit of a number in base two that base two does not have. -/
def strayDigit? (n : Segments) : Option Char :=
  if n.base = .binary then n.digits.find? fun c => '2' ≤ c && c ≤ '9' else none

/-- What a number made of segments is taken apart into, or what is wrong with it. -/
def reading (n : Segments) (negative : Bool) (suffix : NumberSuffix) :
    Except NumberError Literal :=
  if n.exponent.any fun e => e.sign.isSome && e.digits.isEmpty then .error .malformedExponent
  else if !n.digits.any (Base.isDigit .hexadecimal) then .error .missingDigits
  else match n.strayDigit? with
    | some digit => .error (.invalidDigit digit .binary)
    | none => .ok ⟨negative, n.base, n.integer, n.fraction,
        n.exponent.map fun e => ⟨e.sign, e.digits⟩, suffix⟩

theorem reading_eq_ok_iff {n : Segments} {negative : Bool} {suffix : NumberSuffix} {l : Literal} :
    n.reading negative suffix = .ok l ↔
      (n.exponent.any fun e => e.sign.isSome && e.digits.isEmpty) = false ∧
      n.digits.any (Base.isDigit .hexadecimal) = true ∧ n.strayDigit? = none ∧
      l = ⟨negative, n.base, n.integer, n.fraction,
        n.exponent.map fun e => ⟨e.sign, e.digits⟩, suffix⟩ := by
  unfold reading
  cases n.exponent.any fun e => e.sign.isSome && e.digits.isEmpty with
  | true => simp
  | false =>
    cases n.digits.any (Base.isDigit .hexadecimal) with
    | false => simp
    | true => cases n.strayDigit? <;> simp [eq_comm]

namespace WellFormed

variable {n : Segments}

/-- What follows a fraction starts with an exponent marker or a suffix, if there is anything. -/
theorem opensWith_afterFraction (h : n.WellFormed) {p : Char → Bool}
    (hm : ∀ c, isExponentMarker n.base c = true → p c = false)
    (hs : ∀ s ∈ suffixes, opensWith p s = false) : opensWith p n.afterFraction = false := by
  unfold afterFraction
  cases he : n.exponent with
  | none => exact hs n.suffix h.suffix
  | some e => exact hm e.marker (h.exponent e he).marker

theorem fraction_stops (h : n.WellFormed) :
    opensWith (Literal.isRunChar n.base) n.afterFraction = false := by
  have hdecimal : opensWith (Literal.isRunChar .decimal) n.afterFraction = false := by
    refine h.opensWith_afterFraction (fun c hc => ?_) (by decide)
    rcases eq_of_isExponentMarker hc with rfl | rfl | rfl | rfl <;> decide
  have hends := h.fractionEnds
  cases ht : n.afterFraction with
  | nil => rfl
  | cons c t =>
    rw [ht, opensWith_cons, Bool.eq_false_iff] at hdecimal hends
    rw [opensWith_cons, Bool.eq_false_iff]
    intro hc
    exact (isRunChar_cases hc).elim hdecimal hends

theorem integer_stops (h : n.WellFormed) :
    opensWith (Literal.isRunChar n.base) n.afterInteger = false := by
  unfold afterInteger
  cases n.fraction with
  | none => exact h.fraction_stops
  | some ds => cases n.base <;> rfl

theorem splitFraction_eq (h : n.WellFormed) :
    Literal.splitFraction n.base n.afterInteger = (n.fraction, n.afterFraction) := by
  have hdigits := h.fraction
  unfold afterInteger
  cases hf : n.fraction with
  | none =>
    have hpoint : opensWith (· = '.') n.afterFraction = false := by
      refine h.opensWith_afterFraction (fun c hc => ?_) (by decide)
      rcases eq_of_isExponentMarker hc with rfl | rfl | rfl | rfl <;> decide
    show Literal.splitFraction n.base n.afterFraction = _
    unfold Literal.splitFraction
    split
    · rename_i t heq
      simp [heq, opensWith] at hpoint
    · rfl
  | some ds =>
    rw [hf] at hdigits
    have hdrop := dropWhile_append_eq_iff.2 ⟨hdigits, h.fraction_stops⟩
    rw [Option.getD_some] at hdrop
    show (some ((ds ++ n.afterFraction).takeWhile _), (ds ++ n.afterFraction).dropWhile _) = _
    rw [hdrop, takeWhile_eq_of_dropWhile hdrop]

theorem opensWith_isSign {digits suffix : Text}
    (hd : ∀ c ∈ digits, Literal.isRunChar .decimal c = true) (hs : suffix ∈ suffixes) :
    opensWith isSign (digits ++ suffix) = false := by
  cases digits with
  | nil =>
    have hall : ∀ s ∈ suffixes, opensWith isSign s = false := by decide
    exact hall suffix hs
  | cons d ds =>
    rw [List.cons_append, opensWith_cons, Bool.eq_false_iff]
    intro hsign
    have hrun := hd d List.mem_cons_self
    have hd : d = '+' ∨ d = '-' := by simpa [isSign] using hsign
    rcases hd with rfl | rfl <;> exact absurd hrun (by decide)

theorem splitExponentSign_eq {sign : Option Char} {t : Text}
    (hs : ∀ c, sign = some c → isSign c = true) (ht : opensWith isSign t = false) :
    Literal.splitExponentSign (sign.toList ++ t) = (sign, t) := by
  cases sign with
  | some c => exact if_pos (hs c rfl)
  | none =>
    cases t with
    | nil => rfl
    | cons c t =>
      rw [opensWith_cons] at ht
      exact if_neg (by simp [ht])

theorem splitExponent_eq (h : n.WellFormed) :
    Literal.splitExponent n.base n.afterFraction =
      if n.exponent.any fun e => e.sign.isSome && e.digits.isEmpty then .error .malformedExponent
      else .ok (n.exponent.map fun e => ⟨e.sign, e.digits⟩, n.suffix) := by
  unfold afterFraction
  cases he : n.exponent with
  | none =>
    have hmarker : opensWith (isExponentMarker n.base) n.suffix = false := by
      have hall : ∀ s ∈ suffixes, ∀ base ∈ [Base.binary, .decimal, .hexadecimal],
          opensWith (isExponentMarker base) s = false := by decide
      exact hall n.suffix h.suffix n.base (by cases n.base <;> decide)
    show Literal.splitExponent n.base n.suffix = .ok (none, n.suffix)
    cases hsuffix : n.suffix with
    | nil => rfl
    | cons c s =>
      rw [hsuffix, opensWith_cons] at hmarker
      simp [Literal.splitExponent, hmarker]
  | some e =>
    obtain ⟨hmarker, hsign, hdigits, hany⟩ := h.exponent e he
    have hstop : opensWith (Literal.isRunChar .decimal) n.suffix = false := by
      have hall : ∀ s ∈ suffixes, opensWith (Literal.isRunChar .decimal) s = false := by decide
      exact hall n.suffix h.suffix
    have hdrop := dropWhile_append_eq_iff.2 ⟨hdigits, hstop⟩
    have hunsigned := opensWith_isSign hdigits h.suffix
    have htext : ((some e).map ExponentSegment.text).getD [] ++ n.suffix =
        e.marker :: (e.sign.toList ++ (e.digits ++ n.suffix)) := by
      simp [ExponentSegment.text]
    rw [htext, Literal.splitExponent, if_pos hmarker, splitExponentSign_eq hsign hunsigned]
    simp only [takeWhile_eq_of_dropWhile hdrop, hdrop, hany, Option.any_some]
    by_cases hempty : (e.sign.isSome && e.digits.isEmpty) = true
    · rw [if_pos hempty, hempty]
      rfl
    · rw [if_neg hempty, Bool.eq_false_iff.2 hempty]
      rfl

theorem eq_separator_iff {base : Base} {c : Char} (h : Literal.isRunChar base c = true) :
    c = '_' ↔ Base.isDigit .hexadecimal c = false := by
  constructor
  · rintro rfl
    decide
  · intro hc
    rcases Bool.or_eq_true_iff.1 h with h | h
    · simpa using h
    · split at h
      · rw [h] at hc
        cases hc
      · simp [Base.isDigit, h] at hc

theorem checkDigits_eq (h : n.WellFormed) :
    Literal.checkDigits n.base n.digits =
      if !n.digits.any (Base.isDigit .hexadecimal) then .error .missingDigits
      else match n.strayDigit? with
        | some digit => .error (.invalidDigit digit .binary)
        | none => .ok () := by
  have hchar (c : Char) (hc : c ∈ n.digits) : c = '_' ↔ Base.isDigit .hexadecimal c = false :=
    eq_separator_iff ((List.mem_append.1 hc).elim (h.integer c) (h.fraction c))
  have hall : n.digits.all (· = '_') = !n.digits.any (Base.isDigit .hexadecimal) := by
    rw [Bool.eq_iff_iff, List.all_eq_true, Bool.not_eq_true', List.any_eq_false]
    refine forall_congr' fun c => forall_congr' fun hc => ?_
    rw [decide_eq_true_iff, hchar c hc, Bool.not_eq_true]
  unfold Literal.checkDigits strayDigit?
  rw [hall]
  congr 1
  cases n.base with
  | binary =>
    show _ = match n.digits.find? Literal.isStrayDigit with | some _ => _ | none => _
    cases n.digits.find? Literal.isStrayDigit <;> rfl
  | decimal | hexadecimal => rfl

theorem ofText?_suffix (h : n.WellFormed) : (NumberSuffix.ofText? n.suffix).isSome = true := by
  have hall : ∀ s ∈ suffixes, (NumberSuffix.ofText? s).isSome = true := by decide
  exact hall n.suffix h.suffix

/-- **A number is taken apart into the segments that it was made of.** -/
theorem split_eq (h : n.WellFormed) {t : Text} {negative : Bool}
    (ht : Literal.splitSign t = (negative, n.text)) {suffix : NumberSuffix}
    (hs : NumberSuffix.ofText? n.suffix = some suffix) :
    Literal.split t = n.reading negative suffix := by
  have hinteger := dropWhile_append_eq_iff.2 ⟨h.integer, h.integer_stops⟩
  have hrun := takeWhile_eq_of_dropWhile hinteger
  have hcheck : Literal.checkDigits n.base (n.integer ++ n.fraction.getD []) = _ := h.checkDigits_eq
  unfold Literal.split reading
  simp only [ht, h.base, hinteger, hrun, h.splitFraction_eq, h.splitExponent_eq]
  split
  · rfl
  · simp only [bind, Except.bind, pure, Except.pure, hs, hcheck]
    by_cases hdigits : (!n.digits.any (Base.isDigit .hexadecimal)) = true
    · simp only [if_pos hdigits]
    · simp only [if_neg hdigits]
      cases n.strayDigit? <;> rfl

end WellFormed

end Segments

/-! ## Values -/

/-- Whether an error is about the value of a number, and not about how it is written. -/
def NumberError.isAboutValue : NumberError → Bool
  | overflow _ | integerSuffix => true
  | missingDigits | invalidDigit .. | malformedExponent => false

/-- Something that goes wrong, if it does, because of the value of a number. -/
def FailsByValue {α : Type} (x : Except NumberError α) : Prop :=
  ∀ e, x = .error e → e.isAboutValue = true

namespace FailsByValue

variable {α β : Type}

theorem ok (a : α) : FailsByValue (.ok a) := by
  intro e h
  cases h

theorem error {e : NumberError} (h : e.isAboutValue = true) :
    FailsByValue (.error e : Except NumberError α) := by
  rintro e' ⟨⟩
  exact h

theorem bind {x : Except NumberError α} {f : α → Except NumberError β} (hx : FailsByValue x)
    (hf : ∀ a, FailsByValue (f a)) : FailsByValue (x >>= f) := by
  cases x with
  | ok a => exact hf a
  | error e => exact error (hx e rfl)

theorem ite {p : Prop} [Decidable p] {x y : Except NumberError α} (hx : FailsByValue x)
    (hy : FailsByValue y) : FailsByValue (if p then x else y) := by
  split
  · exact hx
  · exact hy

end FailsByValue

namespace Literal

theorem integerValue_fails (l : Literal) : FailsByValue l.integerValue := by
  refine .ite (.error rfl) (.ite (.error rfl) ?_)
  dsimp only
  split
  · exact .ok _
  · exact .error rfl

theorem wideExponent_fails (l : Literal) : FailsByValue l.wideExponent := .ite (.ok _) (.error rfl)

theorem radixFloat_fails (l : Literal) : FailsByValue l.radixFloat :=
  l.wideExponent_fails.bind fun _ => .ite (.ok _) (.error rfl)

theorem floatValue_fails (l : Literal) : FailsByValue l.floatValue := by
  have hmagnitude : FailsByValue l.floatMagnitude := .ite (.ok _) l.radixFloat_fails
  refine hmagnitude.bind fun m => .ite (.ite (.error rfl) (.ok _)) (.ite (.ok _) (.error rfl))

theorem decimalValue_fails (l : Literal) : FailsByValue l.decimalValue := by
  have hdecimal : FailsByValue l.decimal? :=
    .ite (l.wideExponent_fails.bind fun _ => .ok _) (l.radixFloat_fails.bind fun _ => .ok _)
  refine hdecimal.bind fun d => ?_
  cases d with
  | some d => exact .ok _
  | none => exact .error rfl

/-- A number that is well written has a value, or its value is what is wrong with it. -/
theorem value_fails (l : Literal) : FailsByValue l.value := by
  refine .ite ?_ l.integerValue_fails
  unfold fractionalValue
  split
  · exact l.decimalValue_fails
  · exact .error rfl
  · exact .error rfl
  · exact .error rfl
  · exact l.floatValue_fails

end Literal

/-! ## Sources -/

theorem Segments.splitSign_signed {n : Segments} (h : opensNumber n.text = true) (negative : Bool) :
    Literal.splitSign (n.signed negative) = (negative, n.text) := by
  cases negative with
  | true => rfl
  | false =>
    show Literal.splitSign n.text = _
    unfold Literal.splitSign
    split
    · rename_i t heq
      rw [heq] at h
      exact absurd h (by simp [opensNumber, opensFraction_eq, opensPair, opensWith])
    · rfl

theorem Form.split_eq {n : Segments} {negative : Bool} (h : (Form.number n negative).Proper) :
    ∃ suffix, NumberSuffix.ofText? n.suffix = some suffix ∧
      Literal.split (n.signed negative) = n.reading negative suffix := by
  have hn := Segments.wellFormed_of_scan h.2
  obtain ⟨suffix, hsuffix⟩ := Option.isSome_iff_exists.1 hn.ofText?_suffix
  exact ⟨suffix, hsuffix, hn.split_eq (Segments.splitSign_signed h.1 negative) hsuffix⟩

theorem Form.eq_number_of_tag {form : Form} (h : form.Proper) (ht : form.lexeme.tag = .number) :
    ∃ n negative, form = .number n negative := by
  cases form with
  | number n negative => exact ⟨n, negative, rfl⟩
  | faultless tag text =>
    obtain rfl : tag = .number := ht
    exact absurd h Bool.false_ne_true
  | quoted kind content closed => cases kind <;> cases closed <;> cases ht
  | comment body closed | tripleQuoted quote body closed => cases closed <;> cases ht
  | unknown c | emptyCharacter line | bareIdent name | bareSymbol name => cases ht

theorem exists_cons_of_opensNumber {t : Text} (h : opensNumber t = true) : ∃ c u, t = c :: u := by
  cases t with
  | nil => cases h
  | cons c u => exact ⟨c, u, rfl⟩

/-- **The text of a number is a source of that one lexeme**, unless it is an unsigned number behind a
minus sign. -/
theorem Form.lexemes_number_iff {n : Segments} {negative : Bool}
    (h : (Form.number n negative).Proper) :
    Text.lexemes (n.signed negative) = [⟨.number, n.signed negative⟩] ↔
      (negative = true → n.isUnsigned = false) := by
  obtain ⟨hopens, hscan⟩ := h
  cases negative with
  | false =>
    obtain ⟨c, u, htext⟩ := exists_cons_of_opensNumber hopens
    have hnumber : Lexeme.scan none c u = (⟨.number, n.text⟩, []) := by
      rw [htext] at hopens hscan
      rw [Lexeme.scan_of_opensNumber hopens, hscan]
    have hone := Text.lexemesAfter_cons hnumber
    rw [Text.lexemesAfter_nil, ← htext] at hone
    exact iff_of_true hone (by simp)
  | true =>
    have hminus : Lexeme.scan none '-' n.text = _ := Lexeme.minus_of_opensNumber hopens rfl
    rw [hscan] at hminus
    show Text.lexemesAfter none ('-' :: n.text) = [⟨.number, '-' :: n.text⟩] ↔ _
    cases hunsigned : n.isUnsigned with
    | false =>
      rw [hunsigned] at hminus
      exact iff_of_true (by rw [Text.lexemesAfter_cons hminus, Text.lexemesAfter_nil]) fun _ => rfl
    | true =>
      rw [hunsigned] at hminus
      refine iff_of_false (fun hone => ?_) (by simp)
      rw [Text.lexemesAfter_cons hminus] at hone
      cases hone

theorem Form.tokenize_number {n : Segments} {negative : Bool} (h : (Form.number n negative).Proper)
    (hneg : negative = true → n.isUnsigned = false) {v : Value}
    (hv : readNumber (n.signed negative) = .ok v) : (n.signed negative).tokenize =
      ⟨[⟨.number, ⟨0, Text.size (n.signed negative)⟩, v⟩], []⟩ := by
  have hevaluate : Lexeme.evaluate ⟨.number, n.signed negative⟩ 0 =
      (⟨.number, ⟨0, Text.size (n.signed negative)⟩, v⟩, []) := by
    simp [Lexeme.evaluate, Evaluation.ofLexeme, Evaluation.number, hv, Evaluation.token,
      Span.ofLength]
  rw [Text.tokenize_eq, lexemes_number_iff h |>.2 hneg]
  simp [Lexeme.evaluateAll, hevaluate]

theorem Form.eq_number_of_mem_defects {form : Form} {e : NumberError}
    (h : .malformedNumber e ∈ form.defects) :
    ∃ n negative, form = .number n negative ∧ readNumber (n.signed negative) = .error e := by
  cases form with
  | number n negative =>
    refine ⟨n, negative, rfl, ?_⟩
    rw [defects] at h
    cases he : readNumber (n.signed negative) with
    | ok v => simp [he] at h
    | error e' =>
      obtain rfl : e = e' := by simpa [he] using h
      rfl
  | quoted kind content closed =>
    cases closed <;> simp [defects, QuotedKind.countDefects] at h
  | comment body closed | tripleQuoted quote body closed => cases closed <;> simp [defects] at h
  | _ => simp [defects] at h

theorem Segments.invalid_of_reading {n : Segments} {negative : Bool} {suffix : NumberSuffix}
    {c : Char} {base : Base} (h : n.reading negative suffix = .error (.invalidDigit c base)) :
    base = .binary ∧ '2' ≤ c ∧ c ≤ '9' := by
  unfold reading at h
  split at h
  · cases h
  · split at h
    · cases h
    · split at h
      · rename_i digit hdigit
        cases h
        unfold strayDigit? at hdigit
        split at hdigit
        · have hstray := List.find?_some hdigit
          exact ⟨rfl, by simpa using hstray⟩
        · cases hdigit
      · cases h

theorem Text.exists_number_of_getElem? {source : Text} {k : Nat} {l : Lexeme}
    (hl : source.lexemes[k]? = some l) (htag : l.tag = .number) :
    ∃ (rest : Text) (n : Segments) (negative : Bool),
      (source.lexemes.take k).flatMap Lexeme.text ++ (l.text ++ rest) = source ∧
      l.text = n.signed negative ∧ (Form.number n negative).Proper ∧
      Segments.scan (n.text ++ rest) = (n, rest) := by
  obtain ⟨before, c, s, hscan⟩ := scan_of_getElem? hl
  obtain ⟨form, hform, hproper, hstops⟩ := Lexeme.exists_form before c s
  rw [hscan] at hform hstops
  have hlexeme : form.lexeme = l := hform
  obtain ⟨n, negative, rfl⟩ := Form.eq_number_of_tag hproper (hlexeme ▸ htag)
  have htext : l.text = n.signed negative := by rw [← hlexeme]; rfl
  exact ⟨_, n, negative, append_of_getElem? hl, htext, hproper, hstops⟩

/-- **The numbers of a source are taken apart into the segments they were scanned as**: an exponent
without digits is malformed, else digits are missing if there are none, else a digit is invalid in
base two, else the parts are the segments. So a digit is never invalid in another base. -/
theorem Text.numbers_split (source : Text) :
    (∀ (k : Nat) (l : Lexeme), source.lexemes[k]? = some l → l.tag = .number →
      ∃ (rest : Text) (n : Segments) (negative : Bool) (suffix : NumberSuffix),
        (source.lexemes.take k).flatMap Lexeme.text ++ (l.text ++ rest) = source ∧
        l.text = n.signed negative ∧ Segments.scan (n.text ++ rest) = (n, rest) ∧
        NumberSuffix.ofText? n.suffix = some suffix ∧
        Literal.split l.text = n.reading negative suffix) ∧
    ∀ d ∈ source.tokenize.diagnostics, ∀ c base,
      d.defect = .malformedNumber (.invalidDigit c base) → base = .binary ∧ '2' ≤ c ∧ c ≤ '9' := by
  constructor
  · intro k l hl htag
    obtain ⟨rest, n, negative, hsource, htext, hproper, hscan⟩ := exists_number_of_getElem? hl htag
    obtain ⟨suffix, hsuffix, hsplit⟩ := Form.split_eq hproper
    exact ⟨rest, n, negative, suffix, hsource, htext, hscan, hsuffix, htext ▸ hsplit⟩
  · intro d hd c base hdefect
    obtain ⟨form, offset, hproper, -, hmem⟩ := exists_form_of_mem_diagnostics hd
    have hdefects : .malformedNumber (.invalidDigit c base) ∈ form.defects := by
      rw [← form.map_defect_diagnostics offset, ← hdefect]
      exact List.mem_map_of_mem hmem
    obtain ⟨n, negative, rfl, hread⟩ := Form.eq_number_of_mem_defects hdefects
    obtain ⟨suffix, -, hsplit⟩ := Form.split_eq hproper
    rw [readNumber, hsplit] at hread
    cases hr : n.reading negative suffix with
    | error e =>
      rw [hr] at hread
      cases hread
      exact Segments.invalid_of_reading hr
    | ok literal =>
      -- Once it is taken apart, a number has no invalid digits.
      rw [hr] at hread
      exact absurd (literal.value_fails _ hread) Bool.false_ne_true

/-- A negative number in base two with a digit too large. -/
theorem Text.numbers_split_stray_digit :
    (∃ (rest : Text) (n : Segments) (negative : Bool) (suffix : NumberSuffix),
      ['-', '0', 'b', '1', '2'] ++ rest = ['-', '0', 'b', '1', '2', ';'] ∧
      n.signed negative = ['-', '0', 'b', '1', '2'] ∧
      Segments.scan (n.text ++ rest) = (n, rest) ∧
      Literal.split ['-', '0', 'b', '1', '2'] = n.reading negative suffix) ∧
    ∃ d ∈ (tokenize ['-', '0', 'b', '1', '2', ';']).diagnostics, ∃ c base,
      d.defect = .malformedNumber (.invalidDigit c base) ∧
      base = .binary ∧ '2' ≤ c ∧ c ≤ '9' := by
  have hsplit := numbers_split ['-', '0', 'b', '1', '2', ';']
  have hl : (lexemes ['-', '0', 'b', '1', '2', ';'])[0]? =
      some ⟨.number, ['-', '0', 'b', '1', '2']⟩ := by decide +kernel
  have hd : ⟨⟨0, 5⟩, .malformedNumber (.invalidDigit '2' .binary)⟩ ∈
      (tokenize ['-', '0', 'b', '1', '2', ';']).diagnostics := by decide +kernel
  obtain ⟨rest, n, negative, suffix, hsource, htext, hscan, -, heq⟩ := hsplit.1 0 _ hl rfl
  exact ⟨⟨rest, n, negative, suffix, hsource, htext.symm, hscan, heq⟩,
    _, hd, '2', .binary, rfl, hsplit.2 _ hd '2' .binary rfl⟩

end LesTokens
