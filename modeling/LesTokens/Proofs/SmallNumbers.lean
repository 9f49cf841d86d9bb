/-
Numbers that are no greater than one, and those of them that are refused as too great. Digits,
exponent and scale are checked apart, and the magnitude they make together is not
(`Literal.Refused`): digits that no float holds are refused before they are scaled, and an exponent
beyond its bounds even if the digits are zero. Past these checks a small number is rounded to a small
one, and each type has that (`Literal.exists_valueOf_of_rounds`).

**`readNumber_of_le_one`**: a number that is no greater than one is refused for one of its parts, or
it has a value.
-/
import LesTokens.Proofs.FractionZeros
import LesTokens.Proofs.PlainDecimals

namespace LesTokens

namespace Literal

open Floating FloatFormat

/-! ## The number that is written -/

/-- The magnitude of the number that is written. -/
def exactMagnitude (l : Literal) : ℚ :=
  valueOfDigits l.base.radix l.allDigits / l.base.radix ^ (digitValues l.fractionDigits).length *
    (if l.base = .decimal then 10 else 2) ^ l.exponentValue

variable {l : Literal}

theorem exactMagnitude_of_ne (hbase : l.base ≠ .decimal) :
    l.exactMagnitude = valueOfDigits l.base.radix l.allDigits * 2 ^ l.scale := by
  have hradix : (l.base.radix : ℚ) ^ (digitValues l.fractionDigits).length =
      2 ^ ((bitsPerDigit l.base * (digitValues l.fractionDigits).length : ℕ) : ℤ) := by
    rw [zpow_natCast, pow_mul, radix_eq_two_pow hbase]
    push_cast
    rfl
  rw [exactMagnitude, if_neg hbase, hradix, scale, zpow_sub₀ two_ne_zero]
  push_cast
  ring

theorem exactMagnitude_of_eq (hbase : l.base = .decimal) :
    l.exactMagnitude = valueOfDigits 10 l.allDigits *
      10 ^ (l.exponentValue - (digitValues l.fractionDigits).length) := by
  have hradix : l.base.radix = 10 := by rw [hbase]; rfl
  rw [exactMagnitude, if_pos hbase, hradix, zpow_sub₀ (by norm_num), zpow_natCast]
  push_cast
  ring

/-! ## Exponents -/

theorem le_foldl_digits (digits : List ℕ) (n : ℕ) :
    n ≤ digits.foldl (fun n d => n * 10 + d) n := by
  induction digits generalizing n with
  | nil => exact Nat.le_refl n
  | cons d digits ih => exact le_trans (by omega) (ih (n * 10 + d))

theorem foldl_limit (digits : List ℕ) {n : ℕ} (h : exponentLimit ≤ n) :
    digits.foldl (fun n d => if n < exponentLimit then 10 * n + d else n) n = n := by
  induction digits with
  | nil => rfl
  | cons d digits ih => rw [List.foldl_cons, if_neg (Nat.not_lt.2 h), ih]

/-- An exponent that is cut is still beyond the limit. -/
theorem foldl_limit_cases (digits : List ℕ) (n : ℕ) :
    digits.foldl (fun n d => if n < exponentLimit then 10 * n + d else n) n =
      digits.foldl (fun n d => n * 10 + d) n ∨
    exponentLimit ≤ digits.foldl (fun n d => if n < exponentLimit then 10 * n + d else n) n ∧
      digits.foldl (fun n d => if n < exponentLimit then 10 * n + d else n) n ≤
        digits.foldl (fun n d => n * 10 + d) n := by
  induction digits generalizing n with
  | nil => exact .inl rfl
  | cons d digits ih =>
    rcases Nat.lt_or_ge n exponentLimit with hlt | hge
    · rw [List.foldl_cons, List.foldl_cons, if_pos hlt, Nat.mul_comm 10 n]
      exact ih (n * 10 + d)
    · rw [foldl_limit _ hge]
      exact .inr ⟨hge, le_foldl_digits _ n⟩

/-- **Cutting an exponent makes a number no greater**, or it was far below one. -/
theorem boundedExponent_cases (l : Literal) : l.boundedExponent ≤ l.exponentValue ∨
    l.exponentValue < l.boundedExponent ∧ l.boundedExponent ≤ -65536 := by
  unfold boundedExponent exponentValue
  cases l.exponent with
  | none => exact .inl (le_refl _)
  | some e =>
    dsimp only
    have hlimit : exponentLimit = 65536 := rfl
    have hcases := foldl_limit_cases (digitValues e.digits) 0
    unfold signedExponent valueOfDigits
    generalize (digitValues e.digits).foldl
      (fun n d => if n < exponentLimit then 10 * n + d else n) 0 = bounded at *
    generalize (digitValues e.digits).foldl (fun n d => n * 10 + d) 0 = value at *
    split <;> omega

/-! ## Small magnitudes -/

theorem isInfinite_of_isFinite {v : Floating} (h : v.isFinite = true) : v.isInfinite = false := by
  cases v with
  | finite => rfl
  | nan | infinite => cases h

/-- **A magnitude that is rounded from a small number has a value**, whatever the suffix. -/
theorem exists_valueOf_of_rounds {x : ℚ} {m : Floating} (h : Rounds .double false x m) (hx : 0 ≤ x)
    (hsmall : x ≤ 2) (l : Literal) : ∃ v, l.valueOf m = .ok v := by
  have hlt : x < 2 ^ double.greatestPower := by
    refine lt_of_le_of_lt (hsmall.trans_eq (zpow_one 2).symm) ?_
    exact zpow_lt_zpow_right₀ one_lt_two (by decide)
  have hfinite := h.isFinite_of_lt double_proper hlt
  have hmagnitude := h.magnitude double_proper
  cases hmagnitude with
  | infinite => cases hfinite
  | @finite s e hs he =>
    have hle : (s * 2 ^ e : ℚ) ≤ 5 := by
      have hbound := h.le_two_mul double_proper hx
      have hmin : (2 : ℚ) ^ double.minExponent ≤ 1 :=
        zpow_le_one_of_nonpos₀ one_le_two (by decide)
      linarith
    by_cases hdecimal : l.suffix = .decimal
    · obtain ⟨d, hd⟩ := decimalOfFloat?_eq_some hs (hle.trans (by norm_num)) l.negative
      exact ⟨.decimal d, by rw [valueOf_decimal_of_isFinite hdecimal rfl, hd]⟩
    · by_cases hsingle : l.suffix = .single
      · have hround : Rounds .single l.negative _ _ := rounds_roundDyadic l.negative s e
        have hpower : (s * 2 ^ e : ℚ) < 2 ^ single.greatestPower := by
          refine lt_of_le_of_lt hle ?_
          rw [show single.greatestPower = 127 from rfl]
          norm_num
        have hconvert : (convert .single (l.signed (.finite false s e))).isInfinite = false := by
          rw [signed_finite]
          exact isInfinite_of_isFinite (hround.isFinite_of_lt single_proper hpower)
        exact ⟨_, by rw [valueOf_single hsingle, hconvert]; rfl⟩
      · exact ⟨_, by rw [valueOf_double hdecimal hsingle, signed_finite]; rfl⟩

/-! ## Numbers that are refused -/

/-- The float of a number in base ten, at the type that its suffix asks for. -/
def nearestFloat (l : Literal) : Floating :=
  if l.suffix = .single then convert .single (l.signed l.decimalFloat) else l.signed l.decimalFloat

/-- The ways in which a number is refused for one of its parts, whatever its magnitude: digits in
base two or sixteen that no float holds, an exponent or a scale beyond its bounds, and an exponent in
base ten that is cut so that it no longer makes up for the digits. -/
inductive Refused (l : Literal) : Prop
  | digits (hbase : l.base ≠ .decimal) (h : l.mantissa = .infinite false)
    (hsingle : l.suffix = .single → -2047 < l.scale)
  | exponent (hbase : l.base ≠ .decimal) (h : IntegerType.int64.holds l.exponentValue = false)
  | scale (hbase : l.base ≠ .decimal) (h : IntegerType.int32.holds l.scale = false)
  | decimalExponent (hbase : l.base = .decimal) (hs : l.suffix = .decimal)
    (h : IntegerType.int32.holds l.exponentValue = false)
  | cutExponent (hbase : l.base = .decimal) (hs : l.suffix ≠ .decimal)
    (hcut : l.exponentValue < l.boundedExponent) (h : l.nearestFloat.isInfinite = true)

theorem decimalValue_eq (hbase : l.base = .decimal) : l.decimalValue =
    if IntegerType.int64.holds l.exponentValue then
      match if IntegerType.int32.holds l.exponentValue then
        Decimal.ofDigits? l.integer l.fractionDigits l.exponentValue l.negative else none with
      | some d => .ok (.decimal d)
      | none => .error (.overflow .decimal)
    else .error (.overflow .double) := by
  unfold decimalValue decimal? wideExponent
  rw [if_pos hbase]
  cases IntegerType.int64.holds l.exponentValue with
  | false => rfl
  | true =>
    simp only [if_true, bind, Except.bind, pure, Except.pure]
    generalize (if IntegerType.int32.holds l.exponentValue then
      Decimal.ofDigits? l.integer l.fractionDigits l.exponentValue l.negative else none) = d
    cases d <;> rfl

theorem floatValue_decimal (hbase : l.base = .decimal) (hs : l.suffix ≠ .decimal) :
    l.floatValue = l.valueOf l.decimalFloat :=
  floatValue_eq_valueOf (by rw [floatMagnitude, if_pos hbase]) hs

theorem signed_ne_nan {m : Floating} (h : m ≠ .nan) : l.signed m ≠ .nan := by
  unfold signed
  split
  · exact neg_ne_nan h
  · exact h

/-- **In base ten a float is refused exactly if it is infinite.** -/
theorem valueOf_decimalFloat (hs : l.suffix ≠ .decimal) :
    (l.nearestFloat.isInfinite = true →
      ∃ target, l.valueOf l.decimalFloat = .error (.overflow target)) ∧
    (l.nearestFloat.isInfinite = false → ∃ v, l.valueOf l.decimalFloat = .ok v) := by
  unfold nearestFloat
  by_cases hsingle : l.suffix = .single
  · rw [if_pos hsingle, valueOf_single hsingle]
    refine ⟨fun hinf => ⟨.single, if_pos hinf⟩, fun hinf => ?_⟩
    rw [hinf]
    exact ⟨_, rfl⟩
  · rw [if_neg hsingle, valueOf_double hs hsingle]
    refine ⟨fun hinf => ⟨.double, if_neg fun hfinite => ?_⟩, fun hinf => ?_⟩
    · rw [isInfinite_of_isFinite hfinite] at hinf
      cases hinf
    · have hnan := signed_ne_nan (l := l) l.decimalFloat_magnitude.ne_nan
      exact ⟨_, if_pos (isFinite_of_ne hnan hinf)⟩

/-- **What is refused is refused as too great.** -/
theorem Refused.value_error (h : l.Refused) (hfloating : l.isFloating = true)
    (hsuffix : ¬l.hasIntegerSuffix) : ∃ target, l.value = .error (.overflow target) := by
  cases h with
  | digits hbase h hsingle =>
    rw [value_eq_valueOf_scaled hfloating hbase hsuffix, scaled_infinite h]
    split
    · split
      · rename_i hle
        rw [valueOf_nan, if_neg fun hs => absurd (hsingle hs) (Int.not_lt.2 hle)]
        exact ⟨_, rfl⟩
      · exact l.valueOf_infinite
    · exact ⟨_, rfl⟩
  | exponent hbase h =>
    rw [value_eq_valueOf_scaled hfloating hbase hsuffix, h]
    exact ⟨_, rfl⟩
  | scale hbase h =>
    rw [value_eq_valueOf_scaled hfloating hbase hsuffix, h, Bool.and_false]
    exact ⟨_, rfl⟩
  | decimalExponent hbase hs h =>
    rw [value_eq hfloating hsuffix, if_pos hs, decimalValue_eq hbase, h]
    split <;> exact ⟨_, rfl⟩
  | cutExponent hbase hs hcut h =>
    rw [value_eq hfloating hsuffix, if_neg hs, floatValue_decimal hbase hs]
    exact (valueOf_decimalFloat hs).1 h

/-- In base two and sixteen nothing else is refused than digits that no float holds and exponents
beyond their bounds. -/
theorem Refused.not_bounded (h : l.Refused) (hfinite : l.mantissa.isFinite = true)
    (hbase : l.base ≠ .decimal) (hexponent : IntegerType.int64.Fits l.exponentValue)
    (hscale : IntegerType.int32.Fits l.scale) : False := by
  cases h with
  | digits _ hinf =>
    rw [hinf] at hfinite
    cases hfinite
  | exponent _ hheld =>
    rw [IntegerType.holds_iff.2 hexponent] at hheld
    cases hheld
  | scale _ hheld =>
    rw [IntegerType.holds_iff.2 hscale] at hheld
    cases hheld
  | decimalExponent hten => exact hbase hten
  | cutExponent hten => exact hbase hten

/-- **Small numbers have a value in base two and sixteen** unless they are refused. -/
theorem exists_value_of_ne {t : Text} (h : split t = .ok l) (hfloating : l.isFloating = true)
    (hsuffix : ¬l.hasIntegerSuffix) (hbase : l.base ≠ .decimal) (hle : l.exactMagnitude ≤ 1)
    (hnot : ¬l.Refused) : ∃ v, l.value = .ok v := by
  have hexponent : IntegerType.int64.holds l.exponentValue = true := by
    by_contra hheld
    exact hnot (.exponent hbase (Bool.not_eq_true _ ▸ hheld))
  have hscale : IntegerType.int32.holds l.scale = true := by
    by_contra hheld
    exact hnot (.scale hbase (Bool.not_eq_true _ ▸ hheld))
  rw [value_eq_valueOf_scaled hfloating hbase hsuffix, hexponent, hscale, Bool.true_and, if_pos rfl]
  obtain ⟨n, hn, hnle⟩ | hinf := mantissa_cases h hbase
  · by_cases hlow : -2047 < l.scale
    · have hrounds := rounds_scaled hn fun _ => hlow
      refine exists_valueOf_of_rounds hrounds (by positivity) ?_ l
      rw [exactMagnitude_of_ne hbase] at hle
      have hcast : (n : ℚ) ≤ 2 * valueOfDigits l.base.radix l.allDigits := by exact_mod_cast hnle
      have hpos : (0 : ℚ) < 2 ^ l.scale := by positivity
      nlinarith
    · obtain ⟨v, hv, -⟩ := l.exists_valueOf_zero
      rw [scaled_eq_zero hn (by omega)]
      exact ⟨v, hv⟩
  · have hcases : l.suffix = .single ∧ l.scale ≤ -2047 := by
      by_contra hcases
      refine hnot (.digits hbase hinf fun hs => ?_)
      by_contra hlow
      exact hcases ⟨hs, by omega⟩
    rw [scaled_infinite hinf, if_pos hcases.2, valueOf_nan, if_pos hcases.1]
    exact ⟨_, rfl⟩

theorem written_eq_exactMagnitude {t : Text} (h : split t = .ok l) (hbase : l.base = .decimal) :
    Decimal.written l.integer l.fractionDigits l.exponentValue = l.exactMagnitude := by
  have hdigits := isDigit_of_split h
  rw [hbase] at hdigits
  have hinteger := decimalDigits_eq_digitValues fun c hc => hdigits c (List.mem_append_left _ hc)
  have hfraction := decimalDigits_eq_digitValues fun c hc => hdigits c (List.mem_append_right _ hc)
  rw [Decimal.written_eq, valueOfDigits_dropWhile, hinteger, hfraction, exactMagnitude_of_eq hbase,
    div_eq_mul_inv, ← zpow_neg, neg_sub]
  rfl

theorem decimal_lt_ten {t : Text} (h : split t = .ok l) (hbase : l.base = .decimal) :
    ∀ d ∈ l.allDigits, d < 10 := by
  have hlt := lt_radix_of_split h
  rw [hbase] at hlt
  exact hlt

/-- A cut exponent makes up for as many digits as the limit. -/
theorem le_of_cut {t : Text} (h : split t = .ok l) (hbase : l.base = .decimal)
    (hcut : l.boundedExponent ≤ -65536) (hlength : l.allDigits.length ≤ 65536) :
    (valueOfDigits 10 l.allDigits *
      10 ^ (l.boundedExponent - (digitValues l.fractionDigits).length) : ℚ) ≤ 1 := by
  have hlt := valueOfDigits_lt (decimal_lt_ten h hbase)
  have hvalue : (valueOfDigits 10 l.allDigits : ℚ) ≤ 10 ^ (l.allDigits.length : ℤ) := by
    rw [zpow_natCast]
    exact_mod_cast hlt.le
  calc (valueOfDigits 10 l.allDigits *
        10 ^ (l.boundedExponent - (digitValues l.fractionDigits).length) : ℚ)
      ≤ 10 ^ (l.allDigits.length : ℤ) *
        10 ^ (l.boundedExponent - (digitValues l.fractionDigits).length) :=
        mul_le_mul_of_nonneg_right hvalue (by positivity)
    _ = 10 ^ (l.allDigits.length + (l.boundedExponent - (digitValues l.fractionDigits).length)) :=
        (zpow_add₀ (by norm_num) _ _).symm
    _ ≤ 1 := zpow_le_one_of_nonpos₀ (by norm_num) (by omega)

/-- **Small decimals have a value** unless they are refused. -/
theorem exists_decimalValue {t : Text} (h : split t = .ok l) (hbase : l.base = .decimal)
    (hle : l.exactMagnitude ≤ 1) (hheld : IntegerType.int32.holds l.exponentValue = true) :
    ∃ v, l.decimalValue = .ok v := by
  have hwide : IntegerType.int64.holds l.exponentValue = true := by
    obtain ⟨hlow, hhigh⟩ := IntegerType.holds_iff.1 hheld
    refine IntegerType.holds_iff.2 ⟨le_trans ?_ hlow, hhigh.trans ?_⟩ <;> decide
  have hsome : Decimal.ofDigits? l.integer l.fractionDigits l.exponentValue l.negative ≠ none := by
    intro hnone
    have hgreat := (Decimal.ofDigits?_roundsTo _ _ _ _).none_iff.1 hnone
    rw [written_eq_exactMagnitude h hbase] at hgreat
    have : (2 : ℚ) ^ 96 - 1 / 2 ≤ 1 := hgreat.trans hle
    norm_num at this
  obtain ⟨d, hd⟩ := Option.ne_none_iff_exists'.1 hsome
  rw [decimalValue_eq hbase, hwide, hheld, if_pos rfl, if_pos rfl, hd]
  exact ⟨.decimal d, rfl⟩

/-- **Small numbers have a value in base ten** unless they are refused, and a float of no more digits
than the limit of an exponent is not. -/
theorem exists_value_of_eq {t : Text} (h : split t = .ok l) (hfloating : l.isFloating = true)
    (hsuffix : ¬l.hasIntegerSuffix) (hbase : l.base = .decimal) (hle : l.exactMagnitude ≤ 1)
    (hnot : ¬l.Refused ∨ l.suffix ≠ .decimal ∧ l.allDigits.length ≤ 65536) :
    ∃ v, l.value = .ok v := by
  rw [value_eq hfloating hsuffix]
  by_cases hs : l.suffix = .decimal
  · rw [if_pos hs]
    refine exists_decimalValue h hbase hle ?_
    by_contra hheld
    exact hnot.resolve_right (fun hfew => hfew.1 hs)
      (.decimalExponent hbase hs (Bool.not_eq_true _ ▸ hheld))
  · rw [if_neg hs, floatValue_decimal hbase hs]
    have hrounds := l.rounds_decimalFloat
    rw [exactMagnitude_of_eq hbase] at hle
    rcases l.boundedExponent_cases with hbounded | ⟨hcut, hlimit⟩
    · refine exists_valueOf_of_rounds hrounds (by positivity) ?_ l
      have hpow : (10 : ℚ) ^ (l.boundedExponent - (digitValues l.fractionDigits).length) ≤
          10 ^ (l.exponentValue - (digitValues l.fractionDigits).length) :=
        zpow_le_zpow_right₀ (by norm_num) (by omega)
      have hnonneg : (0 : ℚ) ≤ valueOfDigits 10 l.allDigits := Nat.cast_nonneg _
      have hmul := mul_le_mul_of_nonneg_left hpow hnonneg
      linarith
    · rcases hnot with hnot | ⟨-, hfew⟩
      · refine (valueOf_decimalFloat hs).2 ?_
        by_contra hinf
        exact hnot (.cutExponent hbase hs hcut (by simpa using hinf))
      · have hsmall := le_of_cut h hbase hlimit hfew
        exact exists_valueOf_of_rounds hrounds (by positivity) (by linarith) l

end Literal

/-- **Numbers that are no greater than one have a value**, unless one of their parts is refused
whatever their magnitude is. In base ten a float of no more digits than the limit of an exponent is
never refused, and in base two and sixteen no number within the bounds of exponents whose digits
stand for less than the greatest power of two of a float. -/
theorem readNumber_of_le_one {t : Text} {l : Literal} (h : Literal.split t = .ok l)
    (hfloating : l.isFloating = true) (hsuffix : ¬l.hasIntegerSuffix)
    (hle : l.exactMagnitude ≤ 1) :
    (¬l.Refused → ∃ v, readNumber t = .ok v) ∧
    (l.Refused → ∃ target, readNumber t = .error (.overflow target)) ∧
    (l.base = .decimal → l.suffix ≠ .decimal → l.allDigits.length ≤ 65536 →
      ∃ v, readNumber t = .ok v) ∧
    (l.base ≠ .decimal → valueOfDigits l.base.radix l.allDigits < 2 ^ 1023 →
      IntegerType.int64.Fits l.exponentValue → IntegerType.int32.Fits l.scale →
      ∃ v, readNumber t = .ok v) := by
  rw [readNumber_of_split h]
  refine ⟨fun hnot => ?_, fun hrefused => hrefused.value_error hfloating hsuffix,
    fun hbase hs hfew => ?_, fun hbase hdigits hexponent hscale => ?_⟩
  · by_cases hbase : l.base = .decimal
    · exact Literal.exists_value_of_eq h hfloating hsuffix hbase hle (.inl hnot)
    · exact Literal.exists_value_of_ne h hfloating hsuffix hbase hle hnot
  · exact Literal.exists_value_of_eq h hfloating hsuffix hbase hle (.inr ⟨hs, hfew⟩)
  · refine Literal.exists_value_of_ne h hfloating hsuffix hbase hle fun hrefused => ?_
    exact hrefused.not_bounded (Literal.isFinite_mantissa h hbase hdigits) hbase hexponent hscale

/-- A sixteenth in base sixteen, zero with too great an exponent, half a hundredth, and a power of
two that is too small for a float. -/
theorem readNumber_of_le_one_sixteenth :
    (∃ v, readNumber "-0x0.8p-3m".toList = .ok v) ∧
    (∃ target, readNumber "0e2147483648m".toList = .error (.overflow target)) ∧
    (∃ v, readNumber "0.5e-2f".toList = .ok v) ∧
    ∃ v, readNumber "0b1p-1100".toList = .ok v := by
  let l : Literal := ⟨true, .hexadecimal, ['0'], some ['8'], some ⟨some '-', ['3']⟩, .decimal⟩
  let l₀ : Literal := ⟨false, .decimal, ['0'], none, some ⟨none, "2147483648".toList⟩, .decimal⟩
  let l₁ : Literal := ⟨false, .decimal, ['0'], some ['5'], some ⟨some '-', ['2']⟩, .single⟩
  let l₂ : Literal := ⟨false, .binary, ['1'], none, some ⟨some '-', "1100".toList⟩, .none⟩
  have hsplit : Literal.split "-0x0.8p-3m".toList = .ok l := by decide +kernel
  have hsplit₀ : Literal.split "0e2147483648m".toList = .ok l₀ := by decide +kernel
  have hsplit₁ : Literal.split "0.5e-2f".toList = .ok l₁ := by decide +kernel
  have hsplit₂ : Literal.split "0b1p-1100".toList = .ok l₂ := by decide +kernel
  have hle : l.exactMagnitude ≤ 1 := by
    have hvalue : valueOfDigits l.base.radix l.allDigits = 8 := by decide +kernel
    have hscale : l.scale = -7 := by decide +kernel
    rw [Literal.exactMagnitude_of_ne (by decide), hvalue, hscale]
    norm_num
  have hle₀ : l₀.exactMagnitude ≤ 1 := by
    have hvalue : valueOfDigits 10 l₀.allDigits = 0 := by decide +kernel
    rw [Literal.exactMagnitude_of_eq rfl, hvalue, Nat.cast_zero, zero_mul]
    exact zero_le_one
  have hle₁ : l₁.exactMagnitude ≤ 1 := by
    have hvalue : valueOfDigits 10 l₁.allDigits = 5 := by decide +kernel
    have hexponent : l₁.exponentValue - (digitValues l₁.fractionDigits).length = -3 := by
      decide +kernel
    rw [Literal.exactMagnitude_of_eq rfl, hvalue, hexponent]
    norm_num
  have hle₂ : l₂.exactMagnitude ≤ 1 := by
    have hvalue : valueOfDigits l₂.base.radix l₂.allDigits = 1 := by decide +kernel
    have hscale : l₂.scale = -1100 := by decide +kernel
    rw [Literal.exactMagnitude_of_ne (by decide), hvalue, hscale, Nat.cast_one, one_mul]
    exact zpow_le_one_of_nonpos₀ one_le_two (by decide)
  have hnot : ¬l.Refused := by
    intro hrefused
    have hdigits : valueOfDigits l.base.radix l.allDigits < 2 ^ 1023 := by decide +kernel
    have hfinite := Literal.isFinite_mantissa hsplit (by decide) hdigits
    exact hrefused.not_bounded hfinite (by decide) (by decide +kernel) (by decide +kernel)
  obtain ⟨hread, -, -, -⟩ :=
    readNumber_of_le_one hsplit rfl (by simp [Literal.hasIntegerSuffix, l]) hle
  obtain ⟨-, hread₀, -, -⟩ :=
    readNumber_of_le_one hsplit₀ rfl (by simp [Literal.hasIntegerSuffix, l₀]) hle₀
  obtain ⟨-, -, hread₁, -⟩ :=
    readNumber_of_le_one hsplit₁ rfl (by simp [Literal.hasIntegerSuffix, l₁]) hle₁
  obtain ⟨-, -, -, hread₂⟩ :=
    readNumber_of_le_one hsplit₂ rfl (by simp [Literal.hasIntegerSuffix, l₂]) hle₂
  exact ⟨hread hnot, hread₀ (.decimalExponent rfl rfl (by decide +kernel)),
    hread₁ rfl (by decide) (by decide +kernel),
    hread₂ (by decide) (by decide +kernel) (by decide +kernel) (by decide +kernel)⟩

/-- Zero in base sixteen, with a power of two that is too great. -/
theorem not_forall_of_le_one :
    ¬∀ (t : Text) (l : Literal), Literal.split t = .ok l → l.isFloating = true →
      ¬l.hasIntegerSuffix → l.exactMagnitude ≤ 1 → ∃ v, readNumber t = .ok v := by
  intro h
  let l : Literal := ⟨false, .hexadecimal, ['0'], none, some ⟨none, "2147483648".toList⟩, .none⟩
  have hsplit : Literal.split "0x0p2147483648".toList = .ok l := by decide +kernel
  have hread : readNumber "0x0p2147483648".toList = .error (.overflow .double) := by decide +kernel
  have hvalue : valueOfDigits l.base.radix l.allDigits = 0 := by decide +kernel
  have hle : l.exactMagnitude ≤ 1 := by
    rw [Literal.exactMagnitude_of_ne (by decide), hvalue, Nat.cast_zero, zero_mul]
    exact zero_le_one
  obtain ⟨v, hv⟩ := h _ l hsplit rfl (by simp [Literal.hasIntegerSuffix, l]) hle
  rw [hread] at hv
  cases hv

end LesTokens
