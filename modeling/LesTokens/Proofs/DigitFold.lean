/-
Digits of base two or sixteen, taken into a float one by one. Each digit makes the float a multiple
of a power of two, which is no rounding, and adds less than half a unit to it once it has all its
bits. So the float is rounded once, where the digits have more bits than it keeps, and what comes
behind that digit is cut: the float is less than a unit away from the number (`Accurate`), although
it need not be the nearest one.

**`foldDigits_accurate`**: that is what the digits of any number are folded into.
-/
import LesTokens.Number
import LesTokens.Proofs.FloatRounding

namespace LesTokens

namespace Floating

open FloatFormat

/-! ## Accuracy -/

/-- A float that has a natural number exactly, or all its bits but for less than a unit, or that is
infinite because the number is too great. -/
inductive Accurate (n : ℕ) : Floating → Prop
  | exact {s : ℕ} {e : ℤ} (hs : double.Keeps s e) (he : e ≤ double.maxExponent)
    (hvalue : (s * 2 ^ e : ℚ) = n) (hn : n ≤ 2 ^ 53) : Accurate n (.finite false s e)
  | near {s : ℕ} {e : ℤ} (hn : 2 ^ 53 < n) (hs : double.Keeps s e) (he : e ≤ double.maxExponent)
    (hpos : 1 ≤ e) (hnear : |(s * 2 ^ e : ℚ) - n| + 1 ≤ 2 ^ e) : Accurate n (.finite false s e)
  | infinite (hn : 2 ^ 1023 ≤ n) : Accurate n (.infinite false)

variable {n : ℕ} {v : Floating}

theorem Rounds.exact_of_le {b : ℕ} (h : Rounds .double false (n * 2 ^ b) v) (hn : n ≤ 2 ^ 53)
    (hb : b ≤ 4) : ∃ s e, double.Keeps s e ∧ e ≤ double.maxExponent ∧
      (s * 2 ^ e : ℚ) = n * 2 ^ b ∧ v = .finite false s e := by
  have hlt : (n * 2 ^ b : ℚ) < 2 ^ (double.greatestPower + 1) := by
    have hle : ((n * 2 ^ b : ℕ) : ℚ) ≤ (2 ^ 53 * 2 ^ 4 : ℕ) := by
      exact_mod_cast Nat.mul_le_mul hn (Nat.pow_le_pow_right two_pos hb)
    push_cast at hle
    refine lt_of_le_of_lt (hle.trans (le_of_eq ?_)) (zpow_lt_zpow_right₀ one_lt_two
      (show (57 : ℤ) < double.greatestPower + 1 by decide))
    norm_num
  have hmin : double.minExponent ≤ b := by
    show (-1074 : ℤ) ≤ b
    omega
  rcases Nat.lt_or_eq_of_le hn with hn | rfl
  · rw [← zpow_natCast] at h hlt ⊢
    exact h.exact double_proper hn hmin hlt
  · have hvalue : ((2 ^ 53 : ℕ) * 2 ^ b : ℚ) = (1 : ℕ) * 2 ^ ((53 + b : ℕ) : ℤ) := by
      rw [zpow_natCast, pow_add]
      push_cast
      ring
    rw [hvalue] at h hlt ⊢
    refine h.exact double_proper (by decide) ?_ hlt
    push_cast
    omega

theorem Rounds.near_of_lt (h : Rounds .double false n v) (hlow : 2 ^ 53 < n) (hhigh : n < 2 ^ 58) :
    Accurate n v := by
  obtain ⟨s, e, u, hs, hunit, hue, heu, herror, rfl⟩ := h.exists_keeps double_proper
  have hlow' : ((2 ^ 53 : ℕ) : ℚ) < n := by exact_mod_cast hlow
  have hu : 1 ≤ u := by
    have hlt : (2 : ℚ) ^ (53 : ℤ) < 2 ^ (u + (53 : ℕ)) := by
      refine lt_trans ?_ hunit.lt
      exact_mod_cast hlow'
    have := (zpow_lt_zpow_iff_right₀ one_lt_two).1 hlt
    omega
  have hmax : e ≤ double.maxExponent := by
    show e ≤ 971
    have hfull := hunit.full.resolve_right (by show u ≠ -1074; omega)
    have hlt : (2 : ℚ) ^ (u + (53 : ℕ) - 1) < 2 ^ (58 : ℤ) := by
      refine lt_of_le_of_lt hfull ?_
      exact_mod_cast hhigh
    have := (zpow_lt_zpow_iff_right₀ one_lt_two).1 hlt
    omega
  rw [if_neg (by omega)]
  refine .near hlow hs hmax (by omega) ?_
  have htwo : (2 : ℚ) ≤ 2 ^ u := by
    calc (2 : ℚ) = 2 ^ (1 : ℤ) := (zpow_one 2).symm
      _ ≤ 2 ^ u := zpow_le_zpow_right₀ one_le_two hu
  have hle : (2 : ℚ) ^ u ≤ 2 ^ e := zpow_le_zpow_right₀ one_le_two hue
  linarith

namespace Accurate

/-- **A number that fits a float is folded into a finite one.** -/
theorem exists_finite (h : Accurate n v) (hn : n < 2 ^ 1023) :
    ∃ s e, double.Keeps s e ∧ e ≤ double.maxExponent ∧ v = .finite false s e := by
  cases h with
  | exact hs he => exact ⟨_, _, hs, he, rfl⟩
  | near _ hs he => exact ⟨_, _, hs, he, rfl⟩
  | infinite hle => exact absurd hle (Nat.not_le.2 hn)

/-- **One that is too great for a float is not.** -/
theorem eq_infinite (h : Accurate n v) (hn : 2 ^ 1024 ≤ n) : v = .infinite false := by
  cases h with
  | exact hs he hvalue hle =>
    have : 2 ^ 53 < n := lt_of_lt_of_le (Nat.pow_lt_pow_right one_lt_two (by norm_num)) hn
    omega
  | @near s e _ hs he hpos hnear =>
    exfalso
    have hn : (2 : ℚ) ^ (1024 : ℤ) ≤ n := by exact_mod_cast hn
    have hs : ((s + 1 : ℕ) : ℚ) ≤ 2 ^ (53 : ℤ) := by exact_mod_cast hs.lt
    have hle : (2 : ℚ) ^ e ≤ 2 ^ (971 : ℤ) := zpow_le_zpow_right₀ one_le_two he
    have habs := (abs_le.1 (le_sub_iff_add_le.2 hnear)).1
    have hmul : ((s + 1 : ℕ) : ℚ) * 2 ^ e ≤ 2 ^ (1024 : ℤ) := by
      calc ((s + 1 : ℕ) : ℚ) * 2 ^ e
          ≤ 2 ^ (53 : ℤ) * 2 ^ (971 : ℤ) := mul_le_mul hs hle (by positivity) (by positivity)
        _ = 2 ^ (1024 : ℤ) := (zpow_add₀ two_ne_zero _ _).symm
    rw [Nat.cast_succ, add_one_mul] at hmul
    generalize (2 : ℚ) ^ (1024 : ℤ) = greatest at hn hmul
    linarith
  | infinite => rfl

/-! ## One more digit -/

theorem exists_ofNat {b : ℕ} (hn : n ≤ 2 ^ 53) (hb : b ≤ 4) :
    ∃ (s : ℕ) (e : ℤ), (s * 2 ^ e : ℚ) = n * 2 ^ b ∧
      ofNat .double (n * 2 ^ b) = .finite false s e := by
  have h := rounds_ofNat (f := double) (n * 2 ^ b)
  push_cast at h
  obtain ⟨s, e, -, -, hvalue, hv⟩ := h.exact_of_le hn hb
  exact ⟨s, e, hvalue, hv⟩

/-- The digits that fit a float are taken as they are, and the first one that does not fit is
rounded. -/
theorem exact_step {b d s s' : ℕ} {e e' : ℤ} (hb : b ≤ 4) (hd : d < 2 ^ b) (hn : n ≤ 2 ^ 53)
    (hvalue : (s * 2 ^ e : ℚ) = n) (hradix : (s' * 2 ^ e' : ℚ) = 2 ^ b) :
    Accurate (n * 2 ^ b + d)
      (add .double (mul .double (.finite false s e) (.finite false s' e')) (ofNat .double d)) := by
  have hpow : 2 ^ b ≤ 2 ^ 4 := Nat.pow_le_pow_right two_pos hb
  have hproduct : Rounds .double false _ _ := rounds_mul false false s s' e e'
  rw [hvalue, hradix] at hproduct
  obtain ⟨t, k, -, -, hproduct, hmul⟩ := hproduct.exact_of_le hn hb
  obtain ⟨u, j, hdigit, hofNat⟩ := exists_ofNat (n := d) (b := 0) (by omega) (by omega)
  rw [pow_zero, Nat.mul_one] at hofNat
  have hsum := rounds_add (f := double) t u k j
  rw [hproduct, hdigit, ← hmul, ← hofNat] at hsum
  by_cases hle : n * 2 ^ b + d ≤ 2 ^ 53
  · have hcast : (n * 2 ^ b + d * 2 ^ 0 : ℚ) = (n * 2 ^ b + d : ℕ) * 2 ^ 0 := by
      push_cast
      ring
    rw [hcast] at hsum
    obtain ⟨w, i, hw, hi, hvalue, hv⟩ := hsum.exact_of_le hle (by omega)
    rw [hv]
    rw [pow_zero, mul_one] at hvalue
    exact .exact hw hi hvalue hle
  · have hcast : (n * 2 ^ b + d * 2 ^ 0 : ℚ) = (n * 2 ^ b + d : ℕ) := by
      push_cast
      ring
    rw [hcast] at hsum
    have : n * 2 ^ b ≤ 2 ^ 53 * 2 ^ 4 := Nat.mul_le_mul hn hpow
    refine hsum.near_of_lt (by omega) ?_
    omega

theorem great_of_near {b s : ℕ} {e : ℤ} (hfull : 2 ^ 52 ≤ s)
    (hnear : |(s * 2 ^ e : ℚ) - n| + 1 ≤ 2 ^ e) (hmax : 972 ≤ e + b) : 2 ^ 1023 ≤ n * 2 ^ b := by
  have habs := abs_le.1 (le_sub_iff_add_le.2 hnear)
  have hfull : ((2 ^ 52 : ℕ) : ℚ) ≤ s := by exact_mod_cast hfull
  have hn : (2 : ℚ) ^ (51 : ℤ) * 2 ^ e ≤ n := by
    have hmul := mul_le_mul_of_nonneg_right hfull (show (0 : ℚ) ≤ 2 ^ e by positivity)
    norm_num at hmul ⊢
    linarith
  have hle : (2 : ℚ) ^ (1023 : ℤ) ≤ n * 2 ^ b := by
    calc (2 : ℚ) ^ (1023 : ℤ) = 2 ^ (51 : ℤ) * 2 ^ (972 : ℤ) := zpow_add₀ two_ne_zero 51 972
      _ ≤ 2 ^ (51 : ℤ) * 2 ^ (e + b) :=
        mul_le_mul_of_nonneg_left (zpow_le_zpow_right₀ one_le_two hmax) (by positivity)
      _ = 2 ^ (51 : ℤ) * 2 ^ e * 2 ^ b := by
        rw [zpow_add₀ two_ne_zero e, zpow_natCast, mul_assoc]
      _ ≤ n * 2 ^ b := mul_le_mul_of_nonneg_right hn (by positivity)
  exact_mod_cast hle

/-- A digit behind those that fit is cut, because it is less than half a unit. -/
theorem near_step {b d s s' : ℕ} {e e' : ℤ} (hb : b ≤ 4) (hd : d < 2 ^ b) (hn : 2 ^ 53 < n)
    (hs : double.Keeps s e) (hpos : 1 ≤ e) (hnear : |(s * 2 ^ e : ℚ) - n| + 1 ≤ 2 ^ e)
    (hradix : (s' * 2 ^ e' : ℚ) = 2 ^ b) :
    Accurate (n * 2 ^ b + d)
      (add .double (mul .double (.finite false s e) (.finite false s' e')) (ofNat .double d)) := by
  have hpow : 2 ^ b ≤ 2 ^ 4 := Nat.pow_le_pow_right two_pos hb
  have hunit : (2 : ℚ) ^ (e + b) = 2 ^ e * 2 ^ b := by rw [zpow_add₀ two_ne_zero, zpow_natCast]
  have hpositive : (0 : ℚ) < 2 ^ (e + b) := by positivity
  have hfull : 2 ^ 52 ≤ s := hs.full.resolve_right (by show e ≠ -1074; omega)
  have hs' : double.Keeps s (e + b) := ⟨hs.lt, .inl hfull, by have := hs.min_le; omega⟩
  have hshift : (s * 2 ^ e * 2 ^ b : ℚ) = s * 2 ^ (e + b) := by rw [hunit, mul_assoc]
  have hproduct : Rounds .double false _ _ := rounds_mul false false s s' e e'
  rw [hradix, hshift] at hproduct
  obtain ⟨u, j, hdigit, hofNat⟩ := exists_ofNat (n := d) (b := 0) (by omega) (by omega)
  rw [pow_zero, Nat.mul_one] at hofNat
  rw [pow_zero, mul_one] at hdigit
  have habs := abs_le.1 (le_sub_iff_add_le.2 hnear)
  have htwo : (2 : ℚ) ≤ 2 ^ e := by
    calc (2 : ℚ) = 2 ^ (1 : ℤ) := (zpow_one 2).symm
      _ ≤ 2 ^ e := zpow_le_zpow_right₀ one_le_two hpos
  have hdigits : (d : ℚ) + 1 ≤ 2 ^ b := by exact_mod_cast hd
  have hone : (1 : ℚ) ≤ 2 ^ b := one_le_pow₀ one_le_two
  rw [hproduct.eq_of_between double_proper hs' (le_refl _) (by nlinarith), hofNat]
  split
  · rename_i hmax
    exact .infinite ((great_of_near hfull hnear hmax).trans (Nat.le_add_right _ d))
  · rename_i hmax
    have hsum := rounds_add (f := double) s u (e + b) j
    rw [hdigit] at hsum
    rw [hsum.eq_of_between double_proper hs' (by linarith) (by nlinarith), if_neg hmax]
    have hmore := Nat.le_mul_of_pos_right n (Nat.two_pow_pos b)
    refine .near (by omega) hs' (not_lt.1 hmax) (by omega) ?_
    rw [hunit, ← le_sub_iff_add_le, abs_le]
    push_cast
    constructor <;> nlinarith

/-- **One more digit.** -/
theorem step {b d : ℕ} (hb : b ≤ 4) (hd : d < 2 ^ b) (h : Accurate n v) :
    Accurate (n * 2 ^ b + d)
      (add .double (mul .double v (ofNat .double (2 ^ b))) (ofNat .double d)) := by
  have hpow : 2 ^ b ≤ 2 ^ 4 := Nat.pow_le_pow_right two_pos hb
  obtain ⟨s', e', hradix, hofNat⟩ := exists_ofNat (n := 1) (by omega) hb
  rw [Nat.cast_one, one_mul] at hradix
  rw [Nat.one_mul] at hofNat
  rw [hofNat]
  cases h with
  | exact hs he hvalue hn => exact exact_step hb hd hn hvalue hradix
  | near hn hs he hpos hnear => exact near_step hb hd hn hs hpos hnear hradix
  | infinite hn =>
    obtain ⟨u, j, -, hdigit⟩ := exists_ofNat (n := d) (b := 0) (by omega) (by omega)
    rw [pow_zero, Nat.mul_one] at hdigit
    have hne : s' ≠ 0 := by
      rintro rfl
      have hpos : (0 : ℚ) < 2 ^ b := by positivity
      rw [← hradix, Nat.cast_zero, zero_mul] at hpos
      exact lt_irrefl _ hpos
    rw [mul, if_neg hne, hdigit]
    refine .infinite (le_trans hn ?_)
    have := Nat.le_mul_of_pos_right n (Nat.two_pow_pos b)
    omega

end Accurate

end Floating

/-! ## All digits -/

/-- **What digits are folded into** is less than a unit away from their number. -/
theorem Literal.foldDigits_accurate {base : Base} (hbase : base ≠ .decimal) {digits : List ℕ}
    (h : ∀ d ∈ digits, d < base.radix) :
    Floating.Accurate (valueOfDigits base.radix digits) (foldDigits base.radix digits) := by
  obtain ⟨b, hb, hradix⟩ : ∃ b ≤ 4, base.radix = 2 ^ b := by
    cases base with
    | binary => exact ⟨1, by omega, rfl⟩
    | decimal => exact absurd rfl hbase
    | hexadecimal => exact ⟨4, by omega, rfl⟩
  rw [hradix] at h ⊢
  suffices hfold : ∀ n v, Floating.Accurate n v →
      Floating.Accurate (digits.foldl (fun n d => n * 2 ^ b + d) n) (digits.foldl
        (fun m d => .add .double (.mul .double m (.ofNat .double (2 ^ b))) (.ofNat .double d)) v) by
    refine hfold 0 _ (.exact ⟨Nat.two_pow_pos _, .inr rfl, le_refl _⟩
      FloatFormat.double_proper.min_lt_max.le ?_ (Nat.zero_le _))
    rw [Nat.cast_zero, zero_mul]
  induction digits with
  | nil => exact fun n v hv => hv
  | cons d digits ih =>
    intro n v hv
    rw [List.forall_mem_cons] at h
    exact ih h.2 _ _ (hv.step hb h.1)

end LesTokens
