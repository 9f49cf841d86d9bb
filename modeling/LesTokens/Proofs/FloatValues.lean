/-
The float of a number and the value that it makes. In base ten it is the number, rounded once
(`Literal.rounds_decimalFloat`). In base two and sixteen it is the whole number that the digits are
folded into (`Floating.Whole`), scaled by a power of two, of which half is taken at a time. The first
half is exact, because a whole number has its bits above the least exponent, or it is already beyond
the greatest float, and then so is the result (`Literal.mul_twoPow_cases`): the two steps round once.
Only a scale whose halves are too small for a power of two makes zero of any number
(`Literal.scaleByPower_eq_zero`). The sign and the suffix make a value of the float
(`Literal.valueOf`).

**`Literal.rounds_scaled`**: a number in base two or sixteen whose digits a float holds is that whole
number times its power of two, rounded once.
-/
import LesTokens.Proofs.LiteralParts

namespace LesTokens

namespace Floating

open FloatFormat

/-! ## What a number is rounded to -/

section

variable {f : FloatFormat} {negative : Bool} {x : ℚ} {v w : Floating}

/-- **A number is rounded to one float.** -/
theorem Rounds.unique (hf : f.Proper) (h : Rounds f negative x v) (h' : Rounds f negative x w) :
    v = w := by
  obtain ⟨s, u, hunit, hnearest, rfl⟩ := h.exists_pack hf
  obtain ⟨s', u', hunit', hnearest', rfl⟩ := h'.exists_pack hf
  obtain rfl := hunit.unique hunit'
  rw [hnearest.unique hnearest']

theorem Rounds.eq_infinite (hf : f.Proper) (h : Rounds f negative x v)
    (hx : 2 ^ (f.greatestPower + 1) ≤ x) : v = infinite negative := by
  obtain ⟨s, e, u, -, hunit, hle, -, -, rfl⟩ := h.exists_keeps hf
  have hlt := (zpow_lt_zpow_iff_right₀ one_lt_two).1 (lt_of_le_of_lt hx hunit.lt)
  refine if_pos ?_
  unfold greatestPower at hlt
  omega

theorem Rounds.eq_zero (hf : f.Proper) (h : Rounds f negative x v) (hv : v.isZero = true) :
    v = zero f negative := by
  obtain ⟨s, e, u, hs, -, -, -, -, rfl⟩ := h.exists_keeps hf
  split at hv
  · cases hv
  · rename_i hmax
    obtain rfl : s = 0 := of_decide_eq_true hv
    rw [if_neg hmax, hs.full.resolve_left (Nat.two_pow_pos _).not_ge]
    rfl

/-- Rounding makes a number no more than twice as great, but for the least unit. -/
theorem Rounds.le_two_mul (hf : f.Proper) {n : Bool} {s : ℕ} {e : ℤ}
    (h : Rounds f negative x (.finite n s e)) (hx : 0 ≤ x) :
    s * 2 ^ e ≤ 2 * x + 2 ^ f.minExponent := by
  obtain ⟨s', e', u, -, hunit, -, -, herror, heq⟩ := h.exists_keeps hf
  split at heq
  · cases heq
  · obtain ⟨-, rfl, rfl⟩ := finite.inj heq
    have hpos : (0 : ℚ) < 2 ^ f.minExponent := by positivity
    have hhigh := (abs_le.1 herror).2
    rcases hunit.full with hfull | rfl
    · have hpow : (2 : ℚ) ^ u ≤ x := by
        refine le_trans (zpow_le_zpow_right₀ one_le_two ?_) hfull
        have := hf.precision_pos
        omega
      linarith
    · linarith

end

/-! ## Whole floats -/

/-- A float without a sign that is a whole number. -/
inductive Whole (n : ℕ) : Floating → Prop
  | mk {s : ℕ} {e : ℤ} (hs : double.Keeps s e) (he : e ≤ double.maxExponent)
    (hvalue : (s * 2 ^ e : ℚ) = n) : Whole n (.finite false s e)

namespace Whole

variable {n : ℕ} {v w : Floating}

theorem isZero_eq (h : Whole n v) : v.isZero = decide (n = 0) := by
  obtain ⟨hs, he, hvalue⟩ := h
  rename_i s e
  have hpos : (0 : ℚ) < 2 ^ e := by positivity
  have hiff : s = 0 ↔ n = 0 := by
    rw [← Nat.cast_eq_zero (R := ℚ), ← Nat.cast_eq_zero (R := ℚ) (n := n), ← hvalue,
      mul_eq_zero_iff_right hpos.ne']
  exact decide_eq_decide.2 hiff

theorem isFinite (h : Whole n v) : v.isFinite = true := by
  cases h
  rfl

theorem exists_bits (h : Whole n v) : ∃ k j : ℕ, k < 2 ^ 53 ∧ n = k * 2 ^ j := by
  obtain ⟨hs, he, hvalue⟩ := h
  rename_i s e
  have hlt : s < 2 ^ 53 := hs.lt
  rcases Int.le_total 0 e with hpos | hneg
  · obtain ⟨j, rfl⟩ := Int.eq_ofNat_of_zero_le hpos
    refine ⟨s, j, hlt, ?_⟩
    rw [zpow_natCast] at hvalue
    exact_mod_cast hvalue.symm
  · refine ⟨n, 0, ?_, by simp⟩
    have hle : (n : ℚ) ≤ s := by
      rw [← hvalue]
      exact mul_le_of_le_one_right (by positivity) (zpow_le_one_of_nonpos₀ one_le_two hneg)
    have hle : n ≤ s := by exact_mod_cast hle
    omega

/-- **A whole number times a power of two is exact**, or too great for a float. -/
theorem exact (h : Whole n v) {j : ℤ} (hj : -1074 ≤ j) (hw : Rounds .double false (n * 2 ^ j) w) :
    (∃ s e, double.Keeps s e ∧ e ≤ double.maxExponent ∧ (s * 2 ^ e : ℚ) = n * 2 ^ j ∧
      w = .finite false s e) ∨
    (2 : ℚ) ^ (1024 : ℤ) ≤ n * 2 ^ j ∧ w = .infinite false := by
  obtain ⟨k, i, hk, rfl⟩ := h.exists_bits
  have hvalue : ((k * 2 ^ i : ℕ) * 2 ^ j : ℚ) = k * 2 ^ (i + j) := by
    rw [zpow_add₀ two_ne_zero, zpow_natCast]
    push_cast
    ring
  rw [hvalue] at hw ⊢
  rcases lt_or_ge ((k : ℚ) * 2 ^ (i + j)) (2 ^ (1024 : ℤ)) with hlt | hge
  · left
    refine hw.exact double_proper hk ?_ hlt
    show (-1074 : ℤ) ≤ i + j
    omega
  · exact .inr ⟨hge, hw.eq_infinite double_proper hge⟩

end Whole

/-! ## Powers of two -/

/-- A product with a power of two that is a float is rounded once. -/
theorem rounds_mul_twoPow (s : ℕ) (e : ℤ) {k : ℤ} (hlow : -1023 ≤ k) (hhigh : k ≤ 1023) :
    Rounds .double false (s * 2 ^ e * 2 ^ k)
      (mul .double (.finite false s e) (twoPow .double k)) := by
  obtain ⟨hlt, -⟩ | ⟨hlt, -⟩ | ⟨-, -, s', e', -, -, hvalue, h⟩ := twoPow_cases k
  · omega
  · omega
  · rw [h, ← hvalue]
    exact rounds_mul false false s s' e e'

theorem mul_twoPow_infinite {s : ℕ} (hne : s ≠ 0) (e : ℤ) {k : ℤ} (hk : 1023 < k) :
    mul .double (.finite false s e) (twoPow .double k) = .infinite false := by
  have hinf : twoPow .double k = .infinite false := if_pos hk
  rw [hinf, mul, if_neg hne]
  rfl

theorem mul_zero_right (f : FloatFormat) (s : ℕ) (e : ℤ) :
    mul f (.finite false s e) (zero f false) = zero f false := by
  simp [mul, zero, roundDyadic, round]

end Floating

namespace Literal

open Floating FloatFormat

/-! ## Two steps -/

/-- A number that is too great after the first step is so after the second. -/
theorem infinite_mul_twoPow {k : ℤ} (hk : -1023 ≤ k) :
    mul .double (.infinite false) (twoPow .double k) = .infinite false := by
  rw [mul_infinite (twoPow_magnitude k), isZero_twoPow, decide_eq_false (by omega)]
  rfl

theorem le_scaled {n : ℕ} (hn : n ≠ 0) {p k : ℤ} (hpk : p ≤ k) : (2 : ℚ) ^ p ≤ n * 2 ^ k := by
  have hone : (1 : ℚ) ≤ n := by exact_mod_cast Nat.pos_of_ne_zero hn
  calc (2 : ℚ) ^ p ≤ 2 ^ k := zpow_le_zpow_right₀ one_le_two hpk
    _ ≤ n * 2 ^ k := le_mul_of_one_le_left (by positivity) hone

theorem rounds_infinite {n : ℕ} {k : ℤ} (h : (2 : ℚ) ^ (1024 : ℤ) ≤ n * 2 ^ k) :
    Rounds .double false (n * 2 ^ k) (.infinite false) := by
  have hdyadic : Rounds .double false (n * 2 ^ k) (roundDyadic .double false n k) :=
    rounds_roundDyadic false n k
  rwa [hdyadic.eq_infinite double_proper h] at hdyadic

/-- **The first step is exact**, unless the number is too great already. -/
theorem mul_twoPow_cases {n : ℕ} {m : Floating} (h : Whole n m) (hn : n ≠ 0) {k : ℤ}
    (hk : -1023 ≤ k) :
    (∃ (s : ℕ) (e : ℤ), s ≠ 0 ∧ (s * 2 ^ e : ℚ) = n * 2 ^ k ∧ mul .double m (twoPow .double k) =
      .finite false s e) ∨
    0 < k ∧ (2 : ℚ) ^ (1024 : ℤ) ≤ n * 2 ^ k ∧ mul .double m (twoPow .double k) =
      .infinite false := by
  have hwhole := h
  obtain ⟨hs, he, hvalue⟩ := h
  rename_i s e
  rcases Int.lt_or_le 1023 k with hhigh | hhigh
  · have hsne : s ≠ 0 := by
      rintro rfl
      rw [Nat.cast_zero, zero_mul] at hvalue
      exact hn (by exact_mod_cast hvalue.symm)
    exact .inr ⟨by omega, le_scaled hn (by omega), mul_twoPow_infinite hsne e hhigh⟩
  · have hproduct := rounds_mul_twoPow s e hk hhigh
    rw [hvalue] at hproduct
    obtain ⟨t, u, -, -, hexact, hmul⟩ | ⟨hge, hmul⟩ := hwhole.exact (by omega) hproduct
    · refine .inl ⟨t, u, ?_, hexact, hmul⟩
      rintro rfl
      have hpos := le_scaled hn (le_refl k)
      rw [← hexact, Nat.cast_zero, zero_mul] at hpos
      exact absurd hpos (not_le.2 (by positivity))
    · refine .inr ⟨?_, hge, hmul⟩
      by_contra hlow
      have hlt := hs.lt_greatest double_proper he
      rw [hvalue] at hlt
      have hle : (n * 2 ^ k : ℚ) ≤ n :=
        mul_le_of_le_one_right (by positivity) (zpow_le_one_of_nonpos₀ one_le_two (by omega))
      exact absurd (lt_of_le_of_lt hle hlt) (not_lt.2 hge)

/-- **The two steps of a scale round once**, unless a half is too small for a power of two. -/
theorem rounds_scaleByPower {n : ℕ} {m : Floating} (h : Whole n m) (hn : n ≠ 0) {scale : ℤ}
    (hscale : -2047 < scale) : Rounds .double false (n * 2 ^ scale) (scaleByPower m scale) := by
  obtain ⟨hpos, hneg⟩ := halves scale
  have hsplit : (n * 2 ^ scale : ℚ) = n * 2 ^ scale.tdiv 2 * 2 ^ (scale - scale.tdiv 2) := by
    rw [mul_assoc, ← zpow_add₀ two_ne_zero, add_sub_cancel]
  unfold scaleByPower
  dsimp only
  obtain ⟨s, e, hs, hvalue, hmul⟩ | ⟨hhalf, hge, hmul⟩ :=
    mul_twoPow_cases h hn (show -1023 ≤ scale.tdiv 2 by omega)
  · rw [hmul]
    rcases Int.lt_or_le 1023 (scale - scale.tdiv 2) with hhigh | hhigh
    · rw [mul_twoPow_infinite hs e hhigh]
      exact rounds_infinite (le_scaled hn (by omega))
    · rw [hsplit, ← hvalue]
      exact rounds_mul_twoPow s e (by omega) hhigh
  · -- The first half was positive, so the second one makes the number no smaller.
    have hrest : 0 ≤ scale - scale.tdiv 2 := by omega
    rw [hmul, infinite_mul_twoPow (show -1023 ≤ scale - scale.tdiv 2 by omega)]
    refine rounds_infinite (hge.trans ?_)
    rw [hsplit]
    exact le_mul_of_one_le_right (by positivity) (one_le_zpow₀ one_le_two hrest)

/-- **A scale whose halves are too small for a power of two makes zero of any float.** -/
theorem scaleByPower_eq_zero {s : ℕ} {e : ℤ} (hs : double.Keeps s e) (he : e ≤ double.maxExponent)
    {scale : ℤ} (hscale : scale ≤ -2047) :
    scaleByPower (.finite false s e) scale = zero .double false := by
  obtain ⟨-, hneg⟩ := halves scale
  have hsecond : twoPow .double (scale - scale.tdiv 2) = zero .double false := by
    obtain ⟨hlt, -⟩ | ⟨-, h⟩ | ⟨hle, -⟩ := twoPow_cases (scale - scale.tdiv 2)
    · omega
    · exact h
    · omega
  have hfirst := isInfinite_mul_twoPow hs he (show scale.tdiv 2 < 0 by omega)
  have hmagnitude : Magnitude .double
      (mul .double (.finite false s e) (twoPow .double (scale.tdiv 2))) := by
    refine (Magnitude.finite hs he).mul double_proper (twoPow_magnitude _)
      (fun hinf => absurd hinf Bool.false_ne_true) fun hinf => ?_
    rw [isInfinite_twoPow] at hinf
    have := of_decide_eq_true hinf
    omega
  unfold scaleByPower
  dsimp only
  rw [hsecond]
  cases hmul : mul .double (.finite false s e) (twoPow .double (scale.tdiv 2)) with
  | nan => exact absurd hmul hmagnitude.ne_nan
  | infinite =>
    rw [hmul] at hfirst
    exact absurd hfirst.symm Bool.false_ne_true
  | finite negative t u =>
    rw [hmul] at hmagnitude
    cases hmagnitude
    exact mul_zero_right .double t u

/-! ## Digits and their scale -/

/-- **Digits are folded into a whole number**, no more than twice theirs, or into the infinite
float. -/
theorem foldDigits_cases {base : Base} (hbase : base ≠ .decimal) {digits : List ℕ}
    (h : ∀ d ∈ digits, d < base.radix) :
    (∃ n, Whole n (foldDigits base.radix digits) ∧ n ≤ 2 * valueOfDigits base.radix digits) ∨
      foldDigits base.radix digits = .infinite false := by
  have haccurate := foldDigits_accurate hbase h
  generalize valueOfDigits base.radix digits = value at haccurate ⊢
  generalize foldDigits base.radix digits = v at haccurate ⊢
  have hwhole := fun s e hv => Accurate.exists_whole (n := value) (s := s) (e := e) hv
  cases haccurate with
  | @exact s e hs he hvalue hn => exact .inl ⟨value, .mk hs he hvalue, by omega⟩
  | @near s e hn hs he hpos hnear =>
    obtain ⟨n, hn'⟩ := hwhole s e (.near hn hs he hpos hnear)
    refine .inl ⟨n, .mk hs he hn', ?_⟩
    have hfull : 2 ^ 52 ≤ s := hs.full.resolve_right (by show e ≠ -1074; omega)
    have htwo : ((2 : ℕ) : ℚ) ≤ s := by exact_mod_cast le_trans (by norm_num) hfull
    have hhigh := (abs_le.1 (le_sub_iff_add_le.2 hnear)).2
    have hunit : (2 : ℚ) * 2 ^ e ≤ s * 2 ^ e := mul_le_mul_of_nonneg_right htwo (by positivity)
    rw [hn'] at hhigh hunit
    have hle : (n : ℚ) ≤ (2 * value : ℕ) := by
      push_cast
      linarith
    exact_mod_cast hle
  | infinite => exact .inr rfl

/-- The digits of a number, as a float. -/
def mantissa (l : Literal) : Floating := foldDigits l.base.radix l.allDigits

theorem mantissa_cases {t : Text} {l : Literal} (h : split t = .ok l) (hbase : l.base ≠ .decimal) :
    (∃ n, Whole n l.mantissa ∧ n ≤ 2 * valueOfDigits l.base.radix l.allDigits) ∨
      l.mantissa = .infinite false :=
  foldDigits_cases hbase (lt_radix_of_split h)

theorem isFinite_mantissa {t : Text} {l : Literal} (h : split t = .ok l) (hbase : l.base ≠ .decimal)
    (hsmall : valueOfDigits l.base.radix l.allDigits < 2 ^ 1023) : l.mantissa.isFinite = true := by
  obtain ⟨s, e, -, -, hfinite⟩ :=
    (foldDigits_accurate hbase (lt_radix_of_split h)).exists_finite hsmall
  rw [mantissa, hfinite]
  rfl

variable {l : Literal} {n : ℕ}

/-- **Digits that a float holds are scaled by a power of two and rounded once.** -/
theorem rounds_scaled (h : Whole n l.mantissa) (hscale : n ≠ 0 → -2047 < l.scale) :
    Rounds .double false (n * 2 ^ l.scale) l.scaled := by
  have hzero : (foldDigits l.base.radix l.allDigits).isZero = decide (n = 0) := h.isZero_eq
  unfold scaled
  dsimp only
  rw [hzero]
  by_cases hn : n = 0
  · rw [hn, Nat.cast_zero, zero_mul]
    exact ⟨0, 1, one_pos, by simp, rfl⟩
  · rw [decide_eq_false hn]
    exact rounds_scaleByPower h hn (hscale hn)

theorem scaled_eq_zero (h : Whole n l.mantissa) (hscale : l.scale ≤ -2047) :
    l.scaled = zero .double false := by
  unfold mantissa at h
  unfold scaled
  dsimp only
  split
  · rfl
  · generalize foldDigits l.base.radix l.allDigits = m at h
    obtain ⟨hs, he, -⟩ := h
    exact scaleByPower_eq_zero hs he hscale

theorem scaled_infinite (h : l.mantissa = .infinite false) :
    l.scaled = if l.scale ≤ -2047 then .nan else .infinite false := by
  unfold mantissa at h
  rw [scaled, h, ← scaleByPower_infinite]
  rfl

/-! ## The value of a magnitude -/

theorem rounds_decimalFloat (l : Literal) : Rounds .double false
    (valueOfDigits 10 l.allDigits *
      10 ^ (l.boundedExponent - (digitValues l.fractionDigits).length)) l.decimalFloat := by
  refine ⟨_, _, Nat.pow_pos (by norm_num), ?_, rfl⟩
  simp only [Nat.pow_eq]
  push_cast
  rw [mul_div_assoc, ← zpow_eq_div_toNat]

/-- A magnitude with the sign of the number. -/
def signed (l : Literal) (m : Floating) : Floating := if l.negative then m.neg else m

theorem signed_finite (l : Literal) (s : ℕ) (e : ℤ) :
    l.signed (.finite false s e) = .finite l.negative s e := by
  unfold signed
  cases l.negative <;> rfl

/-- The value that the sign and the suffix of a number make of its magnitude. -/
def valueOf (l : Literal) (m : Floating) : Except NumberError Value :=
  if l.suffix = .decimal then
    match if m.isFinite then decimalOfFloat? m l.negative else none with
    | some d => .ok (.decimal d)
    | none => .error (.overflow .decimal)
  else if l.suffix = .single then
    if (convert .single (l.signed m)).isInfinite then .error (.overflow .single)
    else .ok (.float .single (convert .single (l.signed m)))
  else if (l.signed m).isFinite then .ok (.float .double (l.signed m))
  else .error (.overflow .double)

theorem valueOf_decimal (h : l.suffix = .decimal) (m : Floating) : l.valueOf m =
    match if m.isFinite then decimalOfFloat? m l.negative else none with
    | some d => .ok (.decimal d)
    | none => .error (.overflow .decimal) := if_pos h

theorem valueOf_decimal_of_isFinite (h : l.suffix = .decimal) {m : Floating}
    (hm : m.isFinite = true) : l.valueOf m =
      match decimalOfFloat? m l.negative with
      | some d => .ok (.decimal d)
      | none => .error (.overflow .decimal) := by
  rw [valueOf_decimal h, if_pos hm]

theorem valueOf_single (h : l.suffix = .single) (m : Floating) : l.valueOf m =
    if (convert .single (l.signed m)).isInfinite then .error (.overflow .single)
    else .ok (.float .single (convert .single (l.signed m))) := by
  rw [valueOf, if_neg (by rw [h]; decide), if_pos h]

theorem valueOf_double (hd : l.suffix ≠ .decimal) (hs : l.suffix ≠ .single) (m : Floating) :
    l.valueOf m = if (l.signed m).isFinite then .ok (.float .double (l.signed m))
      else .error (.overflow .double) := by
  rw [valueOf, if_neg hd, if_neg hs]

theorem floatValue_eq_valueOf {m : Floating} (h : l.floatMagnitude = .ok m)
    (hd : l.suffix ≠ .decimal) : l.floatValue = l.valueOf m := by
  unfold floatValue
  rw [h]
  by_cases hs : l.suffix = .single
  · rw [valueOf_single hs]
    exact if_pos hs
  · rw [valueOf_double hd hs]
    exact if_neg hs

/-- Whether the suffix is one of an integer. -/
def hasIntegerSuffix (l : Literal) : Prop :=
  l.suffix = .unsigned ∨ l.suffix = .long ∨ l.suffix = .unsignedLong

theorem value_of_integerSuffix (hfloating : l.isFloating = true) (h : l.hasIntegerSuffix) :
    l.value = .error .integerSuffix := by
  rw [value, if_pos hfloating, fractionalValue]
  rcases h with h | h | h <;> rw [h]

theorem value_eq (hfloating : l.isFloating = true) (h : ¬l.hasIntegerSuffix) :
    l.value = if l.suffix = .decimal then l.decimalValue else l.floatValue := by
  unfold hasIntegerSuffix at h
  rw [value, if_pos hfloating, fractionalValue]
  cases hs : l.suffix with
  | unsigned | long | unsignedLong => simp [hs] at h
  | decimal | none | single | double => rfl

/-- **In base two and sixteen** a number within the bounds of exponents has the value of its scaled
digits. -/
theorem value_eq_valueOf_scaled (hfloating : l.isFloating = true) (hbase : l.base ≠ .decimal)
    (hsuffix : ¬l.hasIntegerSuffix) : l.value =
      if IntegerType.int64.holds l.exponentValue && IntegerType.int32.holds l.scale then
        l.valueOf l.scaled
      else .error (.overflow .double) := by
  have hradix := l.radixFloat_eq
  rw [value_eq hfloating hsuffix]
  split at hradix
  · rename_i hheld
    rw [if_pos hheld]
    split
    · rename_i hs
      rw [valueOf_decimal hs]
      simp only [decimalValue, decimal?, if_neg hbase, hradix, bind, Except.bind, pure, Except.pure]
      generalize (if l.scaled.isFinite then decimalOfFloat? l.scaled l.negative else none) = d
      cases d <;> rfl
    · rename_i hs
      exact floatValue_eq_valueOf (by rw [floatMagnitude, if_neg hbase, hradix]) hs
  · rename_i hheld
    rw [if_neg hheld]
    split
    · simp only [decimalValue, decimal?, if_neg hbase, hradix, bind, Except.bind]
    · simp only [floatValue, floatMagnitude, if_neg hbase, hradix, bind, Except.bind]

/-- **What is too great for a float has no value.** -/
theorem valueOf_infinite (l : Literal) :
    ∃ target, l.valueOf (.infinite false) = .error (.overflow target) := by
  have hsigned : l.signed (.infinite false) = .infinite l.negative := by
    unfold signed
    cases l.negative <;> rfl
  by_cases hd : l.suffix = .decimal
  · exact ⟨.decimal, valueOf_decimal hd _⟩
  · by_cases hs : l.suffix = .single
    · exact ⟨.single, by rw [valueOf_single hs, hsigned]; rfl⟩
    · exact ⟨.double, by rw [valueOf_double hd hs, hsigned]; rfl⟩

/-- What is not a number has a value in the smaller type alone. -/
theorem valueOf_nan (l : Literal) : l.valueOf .nan =
    if l.suffix = .single then .ok (.float .single .nan)
    else .error (.overflow (if l.suffix = .decimal then .decimal else .double)) := by
  have hsigned : l.signed .nan = .nan := by
    unfold signed
    cases l.negative <;> rfl
  by_cases hd : l.suffix = .decimal
  · rw [valueOf_decimal hd, hd]
    rfl
  · by_cases hs : l.suffix = .single
    · rw [valueOf_single hs, hsigned, hs]
      rfl
    · rw [valueOf_double hd hs, hsigned, if_neg hs, if_neg hd]
      rfl

end Literal

end LesTokens
