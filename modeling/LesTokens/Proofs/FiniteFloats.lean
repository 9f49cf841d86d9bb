/-
Which written numbers have a float that is not finite. Rounding never gives what is not a number
(`Rounds.magnitude`), and neither do sums; only the product of an infinite and a zero factor does
(`Magnitude.mul`). The digits of a number in base two or sixteen may be too many for a float, and a
power of two too small for one; if both come together (`Literal.Indeterminate`) their product is not
a number. A number of 64 bits is then refused, as every one is that is not finite. One of 32 bits is
refused only if it is infinite.

**`readNumber_float`**: that is the only way to a float that is not finite.
-/
import LesTokens.Proofs.DigitFold

namespace LesTokens

namespace Floating

open FloatFormat

/-! ## Magnitudes -/

/-- A number of a format without a sign, be it infinite. -/
inductive Magnitude (f : FloatFormat) : Floating → Prop
  | finite {s : ℕ} {e : ℤ} (h : f.Keeps s e) (he : e ≤ f.maxExponent) :
    Magnitude f (.finite false s e)
  | infinite : Magnitude f (.infinite false)

variable {f : FloatFormat} {x : ℚ} {a b v : Floating}

theorem Rounds.magnitude (hf : f.Proper) (h : Rounds f false x v) : Magnitude f v := by
  obtain ⟨s, e, u, hs, -, -, -, -, rfl⟩ := h.exists_keeps hf
  split
  · exact .infinite
  · exact .finite hs (by omega)

namespace Magnitude

theorem ne_nan (h : Magnitude f v) : v ≠ nan := by
  cases h <;> exact Floating.noConfusion

theorem zero (hf : f.Proper) : Magnitude f (zero f false) :=
  .finite ⟨Nat.two_pow_pos _, .inr rfl, le_refl _⟩ hf.min_lt_max.le

theorem add (hf : f.Proper) (ha : Magnitude f a) (hb : Magnitude f b) :
    Magnitude f (add f a b) := by
  cases ha with
  | infinite => cases hb <;> exact .infinite
  | finite =>
    cases hb with
    | infinite => exact .infinite
    | finite => exact (rounds_add ..).magnitude hf

/-- **A product is a number unless one factor is infinite and the other zero.** -/
theorem mul (hf : f.Proper) (ha : Magnitude f a) (hb : Magnitude f b)
    (hab : a.isInfinite = true → b.isZero = false) (hba : b.isInfinite = true → a.isZero = false) :
    Magnitude f (mul f a b) := by
  cases ha with
  | infinite =>
    cases hb with
    | infinite => exact .infinite
    | finite h he =>
      have hne := of_decide_eq_false (hab rfl)
      rw [Floating.mul, if_neg hne]
      exact .infinite
  | finite h he =>
    cases hb with
    | infinite =>
      have hne := of_decide_eq_false (hba rfl)
      rw [Floating.mul, if_neg hne]
      exact .infinite
    | finite => exact (rounds_mul ..).magnitude hf

end Magnitude

theorem mul_infinite (hb : Magnitude f b) :
    mul f (.infinite false) b = if b.isZero then .nan else .infinite false := by
  cases hb with
  | infinite => rfl
  | finite => simp only [mul, isZero, decide_eq_true_eq, Bool.false_bne]

theorem isFinite_of_ne (hnan : v ≠ nan) (hinf : v.isInfinite = false) : v.isFinite = true := by
  cases v with
  | nan => exact absurd rfl hnan
  | infinite => cases hinf
  | finite => rfl

theorem neg_ne_nan (h : v ≠ nan) : v.neg ≠ nan := by
  cases v with
  | nan => exact absurd rfl h
  | infinite => exact Floating.noConfusion
  | finite => exact Floating.noConfusion

theorem convert_ne_nan (hf : f.Proper) (h : v ≠ nan) : convert f v ≠ nan := by
  cases v with
  | nan => exact absurd rfl h
  | infinite => exact Floating.noConfusion
  | finite => exact (rounds_roundDyadic ..).ne_nan hf

/-! ## Powers of two -/

theorem greatestPower_double : double.greatestPower = 1023 := rfl

/-- **A power of two is itself from the reciprocal of the greatest one on**, and zero below. -/
theorem twoPow_cases (k : ℤ) :
    1023 < k ∧ twoPow .double k = .infinite false ∨
      k < -1023 ∧ twoPow .double k = zero .double false ∨
      -1023 ≤ k ∧ k ≤ 1023 ∧ ∃ s e, double.Keeps s e ∧ e ≤ double.maxExponent ∧
        (s * 2 ^ e : ℚ) = 2 ^ k ∧ twoPow .double k = .finite false s e := by
  by_cases hhigh : 1023 < k
  · exact .inl ⟨hhigh, if_pos hhigh⟩
  · by_cases hlow : k < -1023
    · exact .inr (.inl ⟨hlow, (if_neg hhigh).trans (if_pos hlow)⟩)
    · have h : Rounds .double false (2 ^ k) (twoPow .double k) :=
        rounds_twoPow (by rw [greatestPower_double]; omega) (by rw [greatestPower_double]; omega)
      have hlt : ((1 : ℕ) * 2 ^ k : ℚ) < 2 ^ (double.greatestPower + 1) := by
        rw [Nat.cast_one, one_mul, greatestPower_double]
        exact zpow_lt_zpow_right₀ (by norm_num) (by omega)
      rw [← one_mul (2 ^ k : ℚ), ← Nat.cast_one] at h
      obtain ⟨s, e, hs, he, hvalue, hv⟩ :=
        h.exact double_proper (by decide) (show -1074 ≤ k by omega) hlt
      rw [Nat.cast_one, one_mul] at hvalue
      exact .inr (.inr ⟨by omega, by omega, s, e, hs, he, hvalue, hv⟩)

theorem twoPow_magnitude (k : ℤ) : Magnitude .double (twoPow .double k) := by
  obtain ⟨-, h⟩ | ⟨-, h⟩ | ⟨-, -, s, e, hs, he, -, h⟩ := twoPow_cases k
  · exact h ▸ .infinite
  · exact h ▸ .zero double_proper
  · exact h ▸ .finite hs he

theorem isInfinite_twoPow (k : ℤ) : (twoPow .double k).isInfinite = decide (1023 < k) := by
  obtain ⟨hk, h⟩ | ⟨hk, h⟩ | ⟨-, hk, s, e, -, -, -, h⟩ := twoPow_cases k
  · rw [h, decide_eq_true hk]
    rfl
  · rw [h, decide_eq_false (by omega)]
    rfl
  · rw [h, decide_eq_false (by omega)]
    rfl

theorem isZero_twoPow (k : ℤ) : (twoPow .double k).isZero = decide (k < -1023) := by
  obtain ⟨hk, h⟩ | ⟨hk, h⟩ | ⟨hk, -, s, e, -, -, hvalue, h⟩ := twoPow_cases k
  · rw [h, decide_eq_false (by omega)]
    rfl
  · rw [h, decide_eq_true hk]
    rfl
  · rw [h, decide_eq_false (by omega)]
    refine decide_eq_false fun hzero => ?_
    have hpos : (0 : ℚ) < 2 ^ k := by positivity
    rw [← hvalue, hzero, Nat.cast_zero, zero_mul] at hpos
    exact lt_irrefl _ hpos

end Floating

/-! ## Digits and their scale -/

namespace Literal

open Floating FloatFormat

theorem isZero_ofNat {n : ℕ} (hn : 0 < n) : (ofNat .double n).isZero = false := by
  refine (rounds_ofNat n).isZero_eq_false double_proper (le_trans ?_ (Nat.one_le_cast.2 hn))
  exact zpow_le_one_of_nonpos₀ (by norm_num) (by decide)

/-- **Digits are never folded into what is not a number.** -/
theorem foldDigits_magnitude (base : Base) (digits : List ℕ) :
    Magnitude .double (foldDigits base.radix digits) := by
  have hnat (n : ℕ) : Magnitude .double (ofNat .double n) :=
    (rounds_ofNat n).magnitude double_proper
  have hpos : 0 < base.radix := by cases base <;> decide
  have hfinite : (ofNat .double base.radix).isInfinite = false := by cases base <;> decide
  suffices h : ∀ m, Magnitude .double m → Magnitude .double (digits.foldl
      (fun m d => add .double (mul .double m (ofNat .double base.radix)) (ofNat .double d)) m) from
    h _ (.zero double_proper)
  induction digits with
  | nil => exact fun m hm => hm
  | cons d digits ih =>
    intro m hm
    refine ih _ (Magnitude.add double_proper ?_ (hnat d))
    refine hm.mul double_proper (hnat _) (fun _ => isZero_ofNat hpos) fun h => ?_
    rw [hfinite] at h
    exact absurd h Bool.false_ne_true

/-- The halves of a scale have its sign, and the second is the greater one. -/
theorem halves (scale : ℤ) :
    (0 ≤ scale → 0 ≤ scale.tdiv 2 ∧ 2 * scale.tdiv 2 ≤ scale ∧ scale ≤ 2 * scale.tdiv 2 + 1) ∧
      (scale ≤ 0 → scale.tdiv 2 ≤ 0 ∧ scale ≤ 2 * scale.tdiv 2 ∧ 2 * scale.tdiv 2 ≤ scale + 1) := by
  constructor
  · intro h
    rw [Int.tdiv_eq_ediv_of_nonneg h]
    omega
  · intro h
    have hneg : scale.tdiv 2 = -((-scale) / 2) := by
      rw [← Int.tdiv_eq_ediv_of_nonneg (by omega), Int.neg_tdiv, neg_neg]
    rw [hneg]
    omega

/-- **An infinite number stays infinite until a power of two is zero.** -/
theorem scaleByPower_infinite (scale : ℤ) : scaleByPower (.infinite false) scale =
    if scale ≤ -2047 then .nan else .infinite false := by
  obtain ⟨hpos, hneg⟩ := halves scale
  have hmul (k : ℤ) : mul .double (.infinite false) (twoPow .double k) =
      if k < -1023 then .nan else .infinite false := by
    rw [mul_infinite (twoPow_magnitude k), isZero_twoPow k]
    simp only [decide_eq_true_eq]
  unfold scaleByPower
  dsimp only
  rw [hmul]
  split
  · rw [if_pos (by omega)]
    rfl
  · rw [hmul]
    split
    · rw [if_pos (by omega)]
    · rw [if_neg (by omega)]

theorem isZero_mul_twoPow {s : ℕ} {e : ℤ} (hs : double.Keeps s e) (hne : s ≠ 0) {k : ℤ}
    (hk : 0 ≤ k) : (mul .double (.finite false s e) (twoPow .double k)).isZero = false := by
  obtain ⟨-, h⟩ | ⟨hlow, -⟩ | ⟨-, -, s', e', -, -, hvalue, h⟩ := twoPow_cases k
  · rw [h, mul, if_neg hne]
    rfl
  · omega
  · rw [h]
    refine (rounds_mul ..).isZero_eq_false double_proper ?_
    rw [hvalue]
    have hone : (1 : ℚ) ≤ 2 ^ k := one_le_zpow₀ (by norm_num) hk
    have hnat : (1 : ℚ) ≤ s := by exact_mod_cast Nat.pos_of_ne_zero hne
    calc (2 : ℚ) ^ double.minExponent
        ≤ 2 ^ e := zpow_le_zpow_right₀ (by norm_num) hs.min_le
      _ ≤ s * 2 ^ e := le_mul_of_one_le_left (by positivity) hnat
      _ ≤ s * 2 ^ e * 2 ^ k := le_mul_of_one_le_right (by positivity) hone

theorem isInfinite_mul_twoPow {s : ℕ} {e : ℤ} (hs : double.Keeps s e)
    (he : e ≤ double.maxExponent) {k : ℤ} (hk : k < 0) :
    (mul .double (.finite false s e) (twoPow .double k)).isInfinite = false := by
  have hfinite {v : Floating} (h : v.isFinite = true) : v.isInfinite = false := by
    cases v <;> first | rfl | exact absurd h Bool.false_ne_true
  refine hfinite ?_
  have hlt := hs.lt_greatest double_proper he
  obtain ⟨hhigh, -⟩ | ⟨-, h⟩ | ⟨-, -, s', e', -, -, hvalue, h⟩ := twoPow_cases k
  · omega
  · rw [h]
    refine (rounds_mul ..).isFinite_of_lt double_proper ?_
    rw [Nat.cast_zero, zero_mul, mul_zero]
    positivity
  · rw [h]
    refine (rounds_mul ..).isFinite_of_lt double_proper ?_
    rw [hvalue]
    calc (s * 2 ^ e * 2 ^ k : ℚ)
        < 2 ^ (double.greatestPower + 1) * 2 ^ k := mul_lt_mul_of_pos_right hlt (by positivity)
      _ = 2 ^ (double.greatestPower + 1 + k) := (zpow_add₀ two_ne_zero _ _).symm
      _ ≤ 2 ^ double.greatestPower := zpow_le_zpow_right₀ (by norm_num) (by omega)

/-- **A finite number other than zero is never scaled into what is not a number.** A first factor
below one cannot make it infinite, and one from one on cannot make it zero. -/
theorem scaleByPower_finite {s : ℕ} {e : ℤ} (hs : double.Keeps s e) (he : e ≤ double.maxExponent)
    (hne : s ≠ 0) (scale : ℤ) : Magnitude .double (scaleByPower (.finite false s e) scale) := by
  obtain ⟨hpos, hneg⟩ := halves scale
  have hfirst : Magnitude .double
      (mul .double (.finite false s e) (twoPow .double (scale.tdiv 2))) :=
    (Magnitude.finite hs he).mul double_proper (twoPow_magnitude _)
      (fun h => absurd h Bool.false_ne_true) fun _ => decide_eq_false hne
  refine hfirst.mul double_proper (twoPow_magnitude _) (fun hinf => ?_) fun hinf => ?_
  · rw [isZero_twoPow, decide_eq_false]
    intro hlow
    rw [isInfinite_mul_twoPow hs he (by omega)] at hinf
    exact Bool.false_ne_true hinf
  · rw [isInfinite_twoPow] at hinf
    have hhigh := of_decide_eq_true hinf
    exact isZero_mul_twoPow hs hne (by omega)

/-! ## The value of a number -/

/-- The power of two that the digits are scaled by. -/
def scale (l : Literal) : ℤ :=
  l.exponentValue - bitsPerDigit l.base * (digitValues l.fractionDigits).length

/-- A binary or hexadecimal number whose digits are too many for a float, and whose power of two,
although within the bounds of an exponent, is too small for one even by halves. -/
structure Indeterminate (l : Literal) : Prop where
  base_ne : l.base ≠ .decimal
  infinite : foldDigits l.base.radix l.allDigits = .infinite false
  exponent_held : IntegerType.int64.holds l.exponentValue = true
  scale_held : IntegerType.int32.holds l.scale = true
  scale_le : l.scale ≤ -2047

/-- The float of digits and a scale. -/
def scaled (l : Literal) : Floating :=
  let m := foldDigits l.base.radix l.allDigits
  if m.isZero then zero .double false else scaleByPower m l.scale

theorem radixFloat_eq (l : Literal) : l.radixFloat =
    if IntegerType.int64.holds l.exponentValue && IntegerType.int32.holds l.scale then .ok l.scaled
    else .error (.overflow .double) := by
  unfold radixFloat wideExponent
  cases IntegerType.int64.holds l.exponentValue with
  | false => rfl
  | true =>
    show (if IntegerType.int32.holds l.scale then _ else _) = _
    cases IntegerType.int32.holds l.scale <;> rfl

/-- **Digits and a scale make a number unless the digits are infinite and the scale is zero.** -/
theorem scaled_cases (l : Literal) :
    Magnitude .double l.scaled ∧
        ¬(foldDigits l.base.radix l.allDigits = .infinite false ∧ l.scale ≤ -2047) ∨
      l.scaled = .nan ∧
        foldDigits l.base.radix l.allDigits = .infinite false ∧ l.scale ≤ -2047 := by
  have hfold := foldDigits_magnitude l.base l.allDigits
  unfold scaled
  cases h : foldDigits l.base.radix l.allDigits with
  | nan => exact absurd h hfold.ne_nan
  | infinite negative =>
    obtain rfl : negative = false := by
      rw [h] at hfold
      cases hfold
      rfl
    show Magnitude .double (scaleByPower (.infinite false) l.scale) ∧ _ ∨
      scaleByPower (.infinite false) l.scale = .nan ∧ _
    rw [scaleByPower_infinite]
    by_cases hle : l.scale ≤ -2047
    · exact .inr ⟨if_pos hle, rfl, hle⟩
    · rw [if_neg hle]
      exact .inl ⟨.infinite, fun hboth => hle hboth.2⟩
  | finite negative s e =>
    refine .inl ⟨?_, fun hboth => Floating.noConfusion hboth.1⟩
    rw [h] at hfold
    cases hfold with
    | finite hs he =>
      by_cases hzero : s = 0
      · subst hzero
        exact .zero double_proper
      · simp only [isZero, hzero, decide_false, Bool.false_eq_true, if_false]
        exact scaleByPower_finite hs he hzero _

theorem decimalFloat_magnitude (l : Literal) : Magnitude .double l.decimalFloat :=
  Rounds.magnitude double_proper ⟨_, _, Nat.pow_pos (by norm_num), rfl, rfl⟩

/-- **The magnitude of a number is a number unless digits and scale are too far apart.** -/
theorem floatMagnitude_cases {l : Literal} {m : Floating} (h : l.floatMagnitude = .ok m) :
    Magnitude .double m ∧ ¬l.Indeterminate ∨ m = .nan ∧ l.Indeterminate := by
  unfold floatMagnitude at h
  split at h
  · rename_i hbase
    obtain rfl := Except.ok.inj h
    exact .inl ⟨l.decimalFloat_magnitude, fun hl => hl.base_ne hbase⟩
  · rename_i hbase
    rw [radixFloat_eq] at h
    split at h
    · rename_i hheld
      obtain rfl := Except.ok.inj h
      rw [Bool.and_eq_true] at hheld
      obtain ⟨hm, hnot⟩ | ⟨hm, hinf, hle⟩ := l.scaled_cases
      · exact .inl ⟨hm, fun hl => hnot ⟨hl.infinite, hl.scale_le⟩⟩
      · exact .inr ⟨hm, hbase, hinf, hheld.1, hheld.2, hle⟩
    · cases h

theorem Indeterminate.floatMagnitude_eq {l : Literal} (h : l.Indeterminate) :
    l.floatMagnitude = .ok .nan := by
  rw [floatMagnitude, if_neg h.base_ne, radixFloat_eq, h.exponent_held, h.scale_held]
  obtain ⟨-, hnot⟩ | ⟨hm, -⟩ := l.scaled_cases
  · exact absurd ⟨h.infinite, h.scale_le⟩ hnot
  · exact congrArg _ hm

theorem signed_cases {l : Literal} {m : Floating} (h : l.floatMagnitude = .ok m) :
    (if l.negative then m.neg else m) ≠ .nan ∨
      (if l.negative then m.neg else m) = .nan ∧ l.Indeterminate := by
  obtain ⟨hm, -⟩ | ⟨rfl, hl⟩ := floatMagnitude_cases h
  · refine .inl ?_
    split
    · exact neg_ne_nan hm.ne_nan
    · exact hm.ne_nan
  · exact .inr ⟨by split <;> rfl, hl⟩

/-- The float of a number is finite or, in 32 bits alone, not a number. -/
theorem floatValue_cases {l : Literal} {type : FloatType} {v : Floating}
    (h : l.floatValue = .ok (.float type v)) :
    v.isFinite = true ∨ type = .single ∧ v = .nan ∧ l.suffix = .single ∧ l.Indeterminate := by
  cases hm : l.floatMagnitude with
  | error e => simp only [floatValue, hm, bind, Except.bind, reduceCtorEq] at h
  | ok m =>
    have hsigned := signed_cases hm
    simp only [floatValue, hm, bind, Except.bind, pure, Except.pure] at h
    generalize (if l.negative then m.neg else m) = u at h hsigned
    by_cases hsuffix : l.suffix = .single
    · rw [if_pos hsuffix] at h
      split at h
      · cases h
      · rename_i hinf
        obtain ⟨rfl, rfl⟩ := Value.float.inj (Except.ok.inj h)
        obtain hne | ⟨rfl, hl⟩ := hsigned
        · exact .inl (isFinite_of_ne (convert_ne_nan single_proper hne) (Bool.not_eq_true _ ▸ hinf))
        · exact .inr ⟨rfl, rfl, hsuffix, hl⟩
    · rw [if_neg hsuffix] at h
      split at h
      · rename_i hfinite
        obtain ⟨rfl, rfl⟩ := Value.float.inj (Except.ok.inj h)
        exact .inl hfinite
      · cases h

theorem value_cases {l : Literal} {type : FloatType} {v : Floating}
    (h : l.value = .ok (.float type v)) :
    v.isFinite = true ∨ type = .single ∧ v = .nan ∧ l.suffix = .single ∧ l.Indeterminate := by
  unfold value at h
  split at h
  · unfold fractionalValue at h
    split at h
    · unfold decimalValue at h
      cases hd : l.decimal? with
      | error e => simp only [hd, bind, Except.bind, reduceCtorEq] at h
      | ok d => cases d <;> simp only [hd, bind, Except.bind, pure, Except.pure, throw, throwThe,
          MonadExceptOf.throw, reduceCtorEq, Except.ok.injEq] at h
    · cases h
    · cases h
    · cases h
    · exact floatValue_cases h
  · unfold integerValue at h
    dsimp only at h
    split at h
    · cases h
    · split at h
      · cases h
      · split at h <;> cases h

namespace Indeterminate

variable {l : Literal}

theorem isFloating (h : l.Indeterminate) : l.isFloating = true := by
  by_contra hnot
  simp only [Literal.isFloating, Bool.or_eq_true, not_or, Bool.not_eq_true,
    Option.isSome_eq_false_iff, Option.isNone_iff_eq_none] at hnot
  have hscale : l.scale = 0 := by
    rw [scale, exponentValue, hnot.1.2, fractionDigits, hnot.1.1, digitValues]
    simp
  have := h.scale_le
  omega

theorem value_single (h : l.Indeterminate) (hs : l.suffix = .single) :
    l.value = .ok (.float .single .nan) := by
  rw [value, if_pos h.isFloating, fractionalValue, hs]
  simp only [floatValue, h.floatMagnitude_eq, hs, bind, Except.bind, pure, Except.pure]
  cases l.negative <;> rfl

/-- **But for the smaller type, there is no value of what is not a number.** -/
theorem value_error (h : l.Indeterminate) (hs : l.suffix ≠ .single) : ∃ e, l.value = .error e := by
  have hmag := h.floatMagnitude_eq
  rw [floatMagnitude, if_neg h.base_ne] at hmag
  rw [value, if_pos h.isFloating, fractionalValue]
  split
  · refine ⟨.overflow .decimal, ?_⟩
    simp only [decimalValue, decimal?, if_neg h.base_ne, hmag, bind, Except.bind, pure, Except.pure]
    rfl
  · exact ⟨_, rfl⟩
  · exact ⟨_, rfl⟩
  · exact ⟨_, rfl⟩
  · refine ⟨.overflow .double, ?_⟩
    simp only [floatValue, h.floatMagnitude_eq, if_neg hs, bind, Except.bind]
    cases l.negative <;> rfl

end Indeterminate

end Literal

theorem readNumber_of_split {t : Text} {l : Literal} (h : Literal.split t = .ok l) :
    readNumber t = l.value := by
  rw [readNumber, h]
  rfl

/-- **Floats that are read are finite, but for one kind of number.** A number whose digits are too
many for a float and whose power of two is too small for one is, in 32 bits, read as what is not a
number; with any other suffix it is refused. -/
theorem readNumber_float (t : Text) :
    (∀ type v, readNumber t = .ok (.float type v) →
      v.isFinite = true ∨ type = .single ∧ v = .nan) ∧
    (readNumber t = .ok (.float .single .nan) ↔
      ∃ l, Literal.split t = .ok l ∧ l.suffix = .single ∧ l.Indeterminate) ∧
    ∀ l, Literal.split t = .ok l → l.Indeterminate → l.suffix ≠ .single →
      ∃ e, readNumber t = .error e := by
  have hcases {type : FloatType} {v : Floating} (h : readNumber t = .ok (.float type v)) :
      ∃ l, Literal.split t = .ok l ∧ (v.isFinite = true ∨
        type = .single ∧ v = .nan ∧ l.suffix = .single ∧ l.Indeterminate) := by
    cases hl : Literal.split t with
    | error e =>
      rw [readNumber, hl] at h
      cases h
    | ok l => exact ⟨l, rfl, Literal.value_cases (readNumber_of_split hl ▸ h)⟩
  refine ⟨fun type v h => ?_, ⟨fun h => ?_, ?_⟩, fun l hl hind hs => ?_⟩
  · obtain ⟨l, -, hfinite⟩ := hcases h
    exact hfinite.imp_right fun hnan => ⟨hnan.1, hnan.2.1⟩
  · obtain ⟨l, hl, hfinite⟩ := hcases h
    obtain ⟨-, -, hs, hind⟩ := hfinite.resolve_left Bool.false_ne_true
    exact ⟨l, hl, hs, hind⟩
  · rintro ⟨l, hl, hs, hind⟩
    rw [readNumber_of_split hl]
    exact hind.value_single hs
  · rw [readNumber_of_split hl]
    exact hind.value_error hs

/-- One and 256 zeros in base sixteen, times a power of two that is too small for a float. -/
theorem not_forall_isFinite :
    ¬∀ (t : Text) (type : FloatType) (v : Floating),
      readNumber t = .ok (.float type v) → v.isFinite = true := by
  intro h
  let l : Literal := ⟨false, .hexadecimal, '1' :: List.replicate 256 '0', none,
    some ⟨some '-', ['3', '0', '0', '0']⟩, .single⟩
  have hsplit : Literal.split (['0', 'x', '1'] ++ List.replicate 256 '0' ++
      ['p', '-', '3', '0', '0', '0', 'f']) = .ok l := by
    decide +kernel
  have hdigits : (∀ d ∈ l.allDigits, d < 16) ∧ 2 ^ 1024 ≤ valueOfDigits 16 l.allDigits := by
    decide +kernel
  have hind : l.Indeterminate := by
    constructor
    case base_ne => decide
    case infinite =>
      have hbase : l.base ≠ .decimal := by decide
      exact (Literal.foldDigits_accurate hbase hdigits.1).eq_infinite hdigits.2
    case exponent_held => decide +kernel
    case scale_held => decide +kernel
    case scale_le => decide +kernel
  exact Bool.false_ne_true (h _ _ _ ((readNumber_of_split hsplit).trans (hind.value_single rfl)))

end LesTokens
