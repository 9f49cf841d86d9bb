/-
What rounding to a binary format gives, told by the rational number that is rounded. A number has
one exponent at which its significand has as many bits as the format keeps, or the least exponent
of the format (`FloatFormat.Unit`, `Unit.unique`); measured in units of it, the number is rounded to
a whole one, of two the even one (`Nearest`). So rounding depends on the number alone, not on the
quotient it is given as (`Rounds`), and each operation of arithmetic is its exact result, rounded.

**`Rounds.eq_of_between`**: a number from a number of the format up to half a unit above it rounds
to that one. **`Rounds.exact`**: what has no more bits than the format keeps is rounded to itself.
-/
import LesTokens.Floating
import Mathlib

namespace LesTokens

theorem zpow_eq_div_toNat (b : ℚ) (e : ℤ) :
    b ^ e = b ^ e.toNat / b ^ (-e).toNat := by
  rcases Int.le_total 0 e with he | he
  · obtain ⟨n, rfl⟩ := Int.eq_ofNat_of_zero_le he
    rw [Int.toNat_natCast, Int.toNat_eq_zero.2 (by omega), pow_zero, div_one, zpow_natCast]
  · obtain ⟨n, hn⟩ := Int.eq_ofNat_of_zero_le (Int.neg_nonneg.2 he)
    obtain rfl : e = -(n : ℤ) := by omega
    rw [neg_neg, Int.toNat_natCast, Int.toNat_eq_zero.2 (by omega), pow_zero, zpow_neg,
      zpow_natCast, one_div]

/-! ## Significands and exponents -/

namespace FloatFormat

/-- A format that keeps a bit, and has an exponent. -/
structure Proper (f : FloatFormat) : Prop where
  precision_pos : 0 < f.precision
  min_lt_max : f.minExponent < f.maxExponent

theorem single_proper : single.Proper := ⟨by decide, by decide⟩

theorem double_proper : double.Proper := ⟨by decide, by decide⟩

/-- A significand with no more bits than the format keeps, and with all of them unless its exponent
is the least one. -/
structure Keeps (f : FloatFormat) (s : ℕ) (e : ℤ) : Prop where
  lt : s < 2 ^ f.precision
  full : 2 ^ (f.precision - 1) ≤ s ∨ e = f.minExponent
  min_le : f.minExponent ≤ e

/-- The exponent of the last bit that the format keeps of a number. -/
structure Unit (f : FloatFormat) (x : ℚ) (e : ℤ) : Prop where
  lt : x < 2 ^ (e + f.precision)
  full : (2 : ℚ) ^ (e + f.precision - 1) ≤ x ∨ e = f.minExponent
  min_le : f.minExponent ≤ e

variable {f : FloatFormat} {x : ℚ} {e e' : ℤ} {s : ℕ}

theorem Unit.le (h : f.Unit x e) (h' : f.Unit x e') : e ≤ e' := by
  rcases h.full with hfull | rfl
  · have hlt : (2 : ℚ) ^ (e + f.precision - 1) < 2 ^ (e' + f.precision) :=
      lt_of_le_of_lt hfull h'.lt
    have := (zpow_lt_zpow_iff_right₀ (by norm_num)).1 hlt
    omega
  · exact h'.min_le

/-- **A number has one last bit.** -/
theorem Unit.unique (h : f.Unit x e) (h' : f.Unit x e') : e = e' :=
  Int.le_antisymm (h.le h') (h'.le h)

theorem two_pow_precision (hf : f.Proper) : 2 ^ (f.precision - 1) * 2 = 2 ^ f.precision := by
  have := hf.precision_pos
  rw [← pow_succ, Nat.sub_add_cancel this]

theorem zpow_add_precision (f : FloatFormat) (e : ℤ) :
    (2 : ℚ) ^ (e + f.precision) = 2 ^ f.precision * 2 ^ e := by
  rw [add_comm, zpow_add₀ two_ne_zero, zpow_natCast]

theorem zpow_precision (hf : f.Proper) (e : ℤ) :
    (2 : ℚ) ^ (e + f.precision - 1) = 2 ^ (f.precision - 1) * 2 ^ e := by
  have := hf.precision_pos
  rw [← zpow_natCast (2 : ℚ) (f.precision - 1), ← zpow_add₀ (by norm_num)]
  congr 1
  omega

/-- A number that stands less than a unit above one of the format has the same last bit. -/
theorem Keeps.unit (hf : f.Proper) (h : f.Keeps s e) (hle : s * 2 ^ e ≤ x)
    (hlt : x < (s + 1) * 2 ^ e) : f.Unit x e := by
  have hpos : (0 : ℚ) < 2 ^ e := by positivity
  refine ⟨lt_of_lt_of_le hlt ?_, h.full.imp_left fun hfull => le_trans ?_ hle, h.min_le⟩
  · rw [zpow_add_precision]
    have : ((s + 1 : ℕ) : ℚ) ≤ (2 ^ f.precision : ℕ) := by exact_mod_cast h.lt
    push_cast at this
    exact mul_le_mul_of_nonneg_right this hpos.le
  · rw [zpow_precision hf]
    have : ((2 ^ (f.precision - 1) : ℕ) : ℚ) ≤ s := by exact_mod_cast hfull
    push_cast at this
    exact mul_le_mul_of_nonneg_right this hpos.le

theorem Keeps.le_max (hf : f.Proper) (h : f.Keeps s e)
    (hlt : (s * 2 ^ e : ℚ) < 2 ^ (f.greatestPower + 1)) : e ≤ f.maxExponent := by
  have hmin := hf.min_lt_max
  have hpos : (0 : ℚ) < 2 ^ e := by positivity
  rcases (h.unit hf (le_refl _) (by nlinarith)).full with hfull | rfl
  · have := (zpow_lt_zpow_iff_right₀ (by norm_num)).1 (lt_of_le_of_lt hfull hlt)
    unfold greatestPower at this
    omega
  · exact hmin.le

theorem Keeps.lt_greatest (hf : f.Proper) (h : f.Keeps s e) (he : e ≤ f.maxExponent) :
    (s * 2 ^ e : ℚ) < 2 ^ (f.greatestPower + 1) := by
  have hpos : (0 : ℚ) < 2 ^ e := by positivity
  refine lt_of_lt_of_le (h.unit hf (le_refl _) (by nlinarith)).lt ?_
  refine zpow_le_zpow_right₀ (by norm_num) ?_
  unfold greatestPower
  omega

/-- A number with no more bits than the format keeps has a significand with as many as it can. -/
theorem exists_keeps (hf : f.Proper) {k : ℕ} (hk : k < 2 ^ f.precision) (he : f.minExponent ≤ e) :
    ∃ s e', f.Keeps s e' ∧ (s * 2 ^ e' : ℚ) = k * 2 ^ e := by
  obtain ⟨n, rfl⟩ : ∃ n : ℕ, e = f.minExponent + n := ⟨(e - f.minExponent).toNat, by omega⟩
  induction n generalizing k with
  | zero => exact ⟨k, _, ⟨hk, .inr (by simp), he⟩, rfl⟩
  | succ n ih =>
    by_cases hfull : 2 ^ (f.precision - 1) ≤ k
    · exact ⟨k, _, ⟨hk, .inl hfull, he⟩, rfl⟩
    · have htwo := two_pow_precision hf
      obtain ⟨s, e', hs, hvalue⟩ := ih (k := k * 2) (by omega) (by omega)
      refine ⟨s, e', hs, ?_⟩
      rw [hvalue]
      push_cast
      rw [← add_assoc, zpow_add_one₀ (by norm_num)]
      ring

end FloatFormat

namespace Floating

open FloatFormat

/-! ## The nearest whole number -/

/-- A whole number at most half away, and even if it is half away. -/
def Nearest (s : ℕ) (y : ℚ) : Prop := |s - y| ≤ 1 / 2 ∧ (|s - y| = 1 / 2 → s % 2 = 0)

theorem div_lt_half_iff (r : ℕ) {den : ℕ} (hden : 0 < den) :
    (r / den : ℚ) < 1 / 2 ↔ 2 * r < den := by
  rw [div_lt_div_iff₀ (by exact_mod_cast hden) two_pos, one_mul, mul_comm]
  exact_mod_cast Iff.rfl

theorem div_eq_half_iff (r : ℕ) {den : ℕ} (hden : 0 < den) :
    (r / den : ℚ) = 1 / 2 ↔ 2 * r = den := by
  rw [div_eq_div_iff (by exact_mod_cast hden.ne') two_ne_zero, one_mul, mul_comm]
  exact_mod_cast Iff.rfl

theorem nearest_roundHalfEven (num : ℕ) {den : ℕ} (hden : 0 < den) :
    Nearest (roundHalfEven num den) (num / den) := by
  have hdiv : (num : ℚ) / den = (num / den : ℕ) + (num % den : ℕ) / den := by
    have hne : (den : ℚ) ≠ 0 := by exact_mod_cast hden.ne'
    rw [eq_comm, add_div' _ _ _ hne, div_left_inj' hne]
    exact_mod_cast Nat.div_add_mod' num den
  have hrem : ((num % den : ℕ) : ℚ) < den := by exact_mod_cast Nat.mod_lt num hden
  have hpos : (0 : ℚ) < den := by exact_mod_cast hden
  have hlt : ((num % den : ℕ) : ℚ) / den < 1 := (div_lt_one hpos).2 hrem
  have hnonneg : (0 : ℚ) ≤ ((num % den : ℕ) : ℚ) / den := by positivity
  have hhalf := div_lt_half_iff (num % den) hden
  have htie := div_eq_half_iff (num % den) hden
  unfold roundHalfEven
  dsimp only
  rw [Nearest, hdiv]
  generalize ((num % den : ℕ) : ℚ) / den = y at *
  split
  · rename_i hup
    have hge : 1 / 2 ≤ y := by
      by_contra hc
      have := hhalf.1 (not_le.1 hc)
      omega
    have habs : |((num / den + 1 : ℕ) : ℚ) - ((num / den : ℕ) + y)| = 1 - y := by
      push_cast
      rw [add_sub_add_left_eq_sub, abs_of_nonneg (by linarith)]
    rw [habs]
    refine ⟨by linarith, fun h => ?_⟩
    have := htie.1 (by linarith)
    omega
  · rename_i hup
    have hle : y ≤ 1 / 2 := by
      by_contra hc
      have hlt : ¬2 * (num % den) < den := fun h => hc (hhalf.2 h).le
      have hne : ¬2 * (num % den) = den := fun h => hc (htie.2 h).le
      omega
    have habs : |((num / den : ℕ) : ℚ) - ((num / den : ℕ) + y)| = y := by
      rw [sub_add_cancel_left, abs_neg, abs_of_nonneg hnonneg]
    rw [habs]
    refine ⟨hle, fun h => ?_⟩
    have := htie.1 h
    omega

theorem Nearest.eq_of_lt {s k : ℕ} {y : ℚ} (h : Nearest s y) (hk : |k - y| < 1 / 2) : s = k := by
  have habs := abs_le.1 h.1
  have hk := abs_lt.1 hk
  have hlt : (s : ℚ) < k + 1 := by linarith
  have hgt : (k : ℚ) < s + 1 := by linarith
  have hlt : s < k + 1 := by exact_mod_cast hlt
  have hgt : k < s + 1 := by exact_mod_cast hgt
  omega

theorem Nearest.error_le {s : ℕ} {x : ℚ} {u : ℤ} (h : Nearest s (x / 2 ^ u)) :
    |s * 2 ^ u - x| ≤ 2 ^ u / 2 := by
  have hpos : (0 : ℚ) < 2 ^ u := by positivity
  have hscale : (s : ℚ) * 2 ^ u - x = (s - x / 2 ^ u) * 2 ^ u := by field_simp
  rw [hscale, abs_mul, abs_of_pos hpos]
  have := mul_le_mul_of_nonneg_right h.1 hpos.le
  linarith

/-- In units of its last bit, a number is rounded to one of as many bits, or the power of two with
one more. -/
theorem Nearest.bits {f : FloatFormat} {s : ℕ} {x : ℚ} {u : ℤ} (hf : f.Proper) (hunit : f.Unit x u)
    (h : Nearest s (x / 2 ^ u)) :
    s ≤ 2 ^ f.precision ∧ (2 ^ (f.precision - 1) ≤ s ∨ u = f.minExponent) := by
  have hpos : (0 : ℚ) < 2 ^ u := by positivity
  have hnear := abs_le.1 h.1
  constructor
  · have hlt := hunit.lt
    rw [zpow_add_precision, ← div_lt_iff₀ hpos] at hlt
    have hs : (s : ℚ) < (2 ^ f.precision + 1 : ℕ) := by
      push_cast
      linarith
    exact Nat.le_of_lt_succ (by exact_mod_cast hs)
  · refine hunit.full.imp_left fun hge => ?_
    rw [zpow_precision hf, ← le_div_iff₀ hpos] at hge
    have hs : ((2 ^ (f.precision - 1) : ℕ) : ℚ) < (s + 1 : ℕ) := by
      push_cast
      linarith
    exact Nat.le_of_lt_succ (by exact_mod_cast hs)

/-! ## Rounding -/

/-- A significand that has been rounded, as a number of the format: with one bit too many it is the
next power of two. -/
def pack (f : FloatFormat) (negative : Bool) (s : ℕ) (e : ℤ) : Floating :=
  let (s, e) := if s = 2 ^ f.precision then (2 ^ (f.precision - 1), e + 1) else (s, e)
  if f.maxExponent < e then infinite negative else finite negative s e

theorem inUnits_div (num den : ℕ) (e : ℤ) :
    ((inUnits num den e).1 : ℚ) / (inUnits num den e).2 = num / den / 2 ^ e := by
  simp only [inUnits, Nat.pow_eq]
  push_cast
  rw [zpow_eq_div_toNat 2 e]
  field_simp

theorem inUnits_pos (num : ℕ) {den : ℕ} (hden : 0 < den) (e : ℤ) : 0 < (inUnits num den e).2 :=
  Nat.mul_pos hden (Nat.pow_pos two_pos)

theorem inUnits_lt_iff (f : FloatFormat) (num : ℕ) {den : ℕ} (hden : 0 < den) (e : ℤ) :
    (inUnits num den e).1 < (inUnits num den e).2 * Nat.pow 2 f.precision ↔
      (num / den : ℚ) < 2 ^ (e + f.precision) := by
  have hpos : (0 : ℚ) < (inUnits num den e).2 := by exact_mod_cast inUnits_pos num hden e
  rw [zpow_add_precision, ← div_lt_iff₀ (by positivity), ← inUnits_div, div_lt_iff₀ hpos, mul_comm,
    Nat.pow_eq]
  exact_mod_cast Iff.rfl

theorem log2_bounds {num den : ℕ} (hnum : 0 < num) (hden : 0 < den) :
    (2 : ℚ) ^ ((num.log2 : ℤ) - den.log2 - 1) ≤ num / den ∧
      (num / den : ℚ) < 2 ^ ((num.log2 : ℤ) - den.log2 + 1) := by
  have hnum₁ : ((2 ^ num.log2 : ℕ) : ℚ) ≤ num := by exact_mod_cast Nat.log2_self_le hnum.ne'
  have hnum₂ : (num : ℚ) < (2 ^ (num.log2 + 1) : ℕ) := by exact_mod_cast Nat.lt_log2_self
  have hden₁ : ((2 ^ den.log2 : ℕ) : ℚ) ≤ den := by exact_mod_cast Nat.log2_self_le hden.ne'
  have hden₂ : (den : ℚ) < (2 ^ (den.log2 + 1) : ℕ) := by exact_mod_cast Nat.lt_log2_self
  have hpos : (0 : ℚ) < den := by exact_mod_cast hden
  push_cast at hnum₁ hnum₂ hden₁ hden₂
  constructor
  · have hpow : (2 : ℚ) ^ ((num.log2 : ℤ) - den.log2 - 1) = 2 ^ num.log2 / 2 ^ (den.log2 + 1) := by
      rw [sub_sub, zpow_sub₀ two_ne_zero]
      norm_cast
    rw [hpow]
    exact div_le_div₀ (by positivity) hnum₁ hpos hden₂.le
  · have hpow : (2 : ℚ) ^ ((num.log2 : ℤ) - den.log2 + 1) = 2 ^ (num.log2 + 1) / 2 ^ den.log2 := by
      rw [sub_add_eq_add_sub, zpow_sub₀ two_ne_zero]
      norm_cast
    rw [hpow]
    exact div_lt_div₀ hnum₂ hden₁ (by positivity) (by positivity)

/-- **The last exponent is that of the last bit.** -/
theorem unit_lastExponent (f : FloatFormat) {num den : ℕ} (hnum : 0 < num) (hden : 0 < den) :
    f.Unit (num / den) (lastExponent f num den) := by
  obtain ⟨hlow, hhigh⟩ := log2_bounds hnum hden
  have hiff := inUnits_lt_iff f num hden ((num.log2 : ℤ) - den.log2 - f.precision)
  rw [sub_add_cancel] at hiff
  unfold lastExponent
  dsimp only
  split
  · rename_i h
    have hlt := hiff.1 h
    refine ⟨lt_of_lt_of_le hlt ?_, ?_, le_max_left _ _⟩
    · exact zpow_le_zpow_right₀ (by norm_num) (by omega)
    · rcases max_choice f.minExponent ((num.log2 : ℤ) - den.log2 - f.precision) with hmax | hmax
      · exact .inr hmax
      · rw [hmax, sub_add_cancel]
        exact .inl hlow
  · rename_i h
    have hge := not_lt.1 fun hlt => h (hiff.2 hlt)
    refine ⟨lt_of_lt_of_le hhigh ?_, ?_, le_max_left _ _⟩
    · exact zpow_le_zpow_right₀ (by norm_num) (by omega)
    · rcases max_choice f.minExponent ((num.log2 : ℤ) - den.log2 - f.precision + 1) with hmax | hmax
      · exact .inr hmax
      · rw [hmax]
        refine .inl (le_trans (le_of_eq ?_) hge)
        congr 1
        omega

/-- A number of the format that is nearest to a number, if it is not too great for the format. -/
def Rounds (f : FloatFormat) (negative : Bool) (x : ℚ) (v : Floating) : Prop :=
  ∃ num den : ℕ, 0 < den ∧ (num / den : ℚ) = x ∧ v = round f negative num den

namespace Rounds

variable {f : FloatFormat} {negative : Bool} {x : ℚ} {v : Floating}

/-- **Rounding depends on the number alone.** -/
theorem exists_pack (hf : f.Proper) (h : Rounds f negative x v) :
    ∃ s e, f.Unit x e ∧ Nearest s (x / 2 ^ e) ∧ v = pack f negative s e := by
  obtain ⟨num, den, hden, rfl, rfl⟩ := h
  by_cases hnum : num = 0
  · subst hnum
    refine ⟨0, f.minExponent, ⟨by simp; positivity, .inr rfl, le_refl _⟩, by simp [Nearest], ?_⟩
    have hne : (0 : ℕ) ≠ 2 ^ f.precision := (Nat.two_pow_pos _).ne
    have hlt := hf.min_lt_max
    rw [round, if_pos rfl, zero, pack, if_neg hne]
    exact (if_neg (by omega)).symm
  · have hpos := Nat.pos_of_ne_zero hnum
    refine ⟨roundHalfEven (inUnits num den (lastExponent f num den)).1
      (inUnits num den (lastExponent f num den)).2, _, unit_lastExponent f hpos hden, ?_, ?_⟩
    · rw [← inUnits_div]
      exact nearest_roundHalfEven _ (inUnits_pos num hden _)
    · rw [round, if_neg hnum]
      rfl

/-- A number from one of the format up to half a unit above it rounds to that one. -/
theorem eq_of_between (hf : f.Proper) (h : Rounds f negative x v) {s : ℕ} {e : ℤ}
    (hs : f.Keeps s e) (hle : s * 2 ^ e ≤ x) (hlt : x < (s + 1 / 2) * 2 ^ e) :
    v = if f.maxExponent < e then infinite negative else finite negative s e := by
  have hpos : (0 : ℚ) < 2 ^ e := by positivity
  obtain ⟨s', e', hunit, hnearest, rfl⟩ := h.exists_pack hf
  have hlt' : x < (s + 1) * 2 ^ e := by nlinarith
  obtain rfl := hunit.unique (hs.unit hf hle hlt')
  have hlow : (s : ℚ) ≤ x / 2 ^ e' := (le_div_iff₀ hpos).2 hle
  have hhigh : x / 2 ^ e' < s + 1 / 2 := (div_lt_iff₀ hpos).2 hlt
  obtain rfl : s' = s := hnearest.eq_of_lt (by rw [abs_lt]; constructor <;> linarith)
  rw [pack, if_neg (by have := hs.lt; omega)]

/-- **What the format keeps is rounded to itself.** -/
theorem exact (hf : f.Proper) {k : ℕ} {e : ℤ} (h : Rounds f negative (k * 2 ^ e) v)
    (hk : k < 2 ^ f.precision) (he : f.minExponent ≤ e)
    (hx : (k * 2 ^ e : ℚ) < 2 ^ (f.greatestPower + 1)) :
    ∃ s e', f.Keeps s e' ∧ e' ≤ f.maxExponent ∧ (s * 2 ^ e' : ℚ) = k * 2 ^ e ∧
      v = finite negative s e' := by
  obtain ⟨s, e', hs, hvalue⟩ := FloatFormat.exists_keeps hf hk he
  have hmax : e' ≤ f.maxExponent := hs.le_max hf (by rwa [hvalue])
  refine ⟨s, e', hs, hmax, hvalue, ?_⟩
  have hpos : (0 : ℚ) < 2 ^ e' := by positivity
  rw [h.eq_of_between hf hs (le_of_eq hvalue) (by rw [← hvalue]; nlinarith), if_neg (by omega)]

/-- **A number is rounded by at most half a unit**, and its last bit moves up by one at most. -/
theorem exists_keeps (hf : f.Proper) (h : Rounds f negative x v) :
    ∃ s e u, f.Keeps s e ∧ f.Unit x u ∧ u ≤ e ∧ e ≤ u + 1 ∧ |s * 2 ^ e - x| ≤ 2 ^ u / 2 ∧
      v = if f.maxExponent < e then infinite negative else finite negative s e := by
  obtain ⟨s, u, hunit, hnearest, rfl⟩ := h.exists_pack hf
  have herror := hnearest.error_le
  obtain ⟨hle, hfull⟩ := hnearest.bits hf hunit
  by_cases hcarry : s = 2 ^ f.precision
  · have htwo := two_pow_precision hf
    have hpos := Nat.two_pow_pos (f.precision - 1)
    have hmin := hunit.min_le
    refine ⟨2 ^ (f.precision - 1), u + 1, u, ⟨by omega, .inl (le_refl _), by omega⟩, hunit,
      by omega, le_refl _, ?_, ?_⟩
    · have hvalue : ((2 ^ (f.precision - 1) : ℕ) : ℚ) * 2 ^ (u + 1) = s * 2 ^ u := by
        rw [hcarry, ← htwo, zpow_add_one₀ two_ne_zero]
        push_cast
        ring
      rwa [hvalue]
    · rw [pack, if_pos hcarry]
  · refine ⟨s, u, u, ⟨by omega, hfull, hunit.min_le⟩, hunit, le_refl _, by omega, herror, ?_⟩
    rw [pack, if_neg hcarry]

theorem ne_nan (hf : f.Proper) (h : Rounds f negative x v) : v ≠ nan := by
  obtain ⟨s, e, u, -, -, -, -, -, rfl⟩ := h.exists_keeps hf
  split <;> exact Floating.noConfusion

theorem isFinite_of_lt (hf : f.Proper) (h : Rounds f negative x v)
    (hx : x < 2 ^ f.greatestPower) : v.isFinite = true := by
  obtain ⟨s, e, u, -, hunit, -, hle, -, rfl⟩ := h.exists_keeps hf
  have hmin := hf.min_lt_max
  rw [if_neg]
  · rfl
  · rcases hunit.full with hge | rfl
    · have hlt := lt_of_le_of_lt hge hx
      have := (zpow_lt_zpow_iff_right₀ (by norm_num)).1 hlt
      unfold greatestPower at this
      omega
    · omega

theorem isZero_eq_false (hf : f.Proper) (h : Rounds f negative x v)
    (hx : 2 ^ f.minExponent ≤ x) : v.isZero = false := by
  obtain ⟨s, e, u, hs, hunit, hle, -, herror, rfl⟩ := h.exists_keeps hf
  split
  · rfl
  · have hpos : (0 : ℚ) < 2 ^ f.minExponent := by positivity
    refine decide_eq_false fun hzero => ?_
    subst hzero
    have he : e = f.minExponent := hs.full.resolve_left (Nat.two_pow_pos _).not_ge
    obtain rfl : u = f.minExponent := by
      have := hunit.min_le
      omega
    have := abs_le.1 herror
    push_cast at this
    linarith

end Rounds

/-! ## Arithmetic -/

variable {f : FloatFormat} (n n' : Bool) (s s' : ℕ) (e e' : ℤ)

theorem rounds_roundDyadic : Rounds f n (s * 2 ^ e) (roundDyadic f n s e) := by
  refine ⟨_, _, Nat.pow_pos two_pos, ?_, rfl⟩
  simp only [Nat.pow_eq]
  push_cast
  rw [mul_div_assoc, ← zpow_eq_div_toNat]

/-- **A product is rounded once.** -/
theorem rounds_mul :
    Rounds f (n ^^ n') (s * 2 ^ e * (s' * 2 ^ e')) (mul f (finite n s e) (finite n' s' e')) := by
  have h := rounds_roundDyadic (f := f) (n ^^ n') (s * s') (e + e')
  have hvalue : ((s * s' : ℕ) * 2 ^ (e + e') : ℚ) = s * 2 ^ e * (s' * 2 ^ e') := by
    push_cast
    rw [zpow_add₀ two_ne_zero]
    ring
  rw [hvalue] at h
  exact h

/-- **A sum of magnitudes is rounded once.** -/
theorem rounds_add :
    Rounds f false (s * 2 ^ e + s' * 2 ^ e') (add f (finite false s e) (finite false s' e')) := by
  have hmultiple (t : ℕ) (x : ℤ) (hx : min e e' ≤ x) :
      ((multipleOf (min e e') false t x : ℤ) : ℚ) * 2 ^ (min e e') = t * 2 ^ x := by
    obtain ⟨k, hk⟩ := Int.eq_ofNat_of_zero_le (show 0 ≤ x - min e e' by omega)
    have hsplit : x = k + min e e' := by omega
    rw [multipleOf, hk, hsplit, zpow_add₀ two_ne_zero, zpow_natCast, Int.toNat_natCast]
    simp only [Bool.false_eq_true, if_false, Nat.pow_eq]
    push_cast
    ring
  have hnonneg (t : ℕ) (x : ℤ) : 0 ≤ multipleOf (min e e') false t x := Int.natCast_nonneg _
  have hsum : (s * 2 ^ e + s' * 2 ^ e' : ℚ) = ((multipleOf (min e e') false s e +
      multipleOf (min e e') false s' e' : ℤ) : ℚ) * 2 ^ (min e e') := by
    push_cast
    rw [add_mul, hmultiple s e (by omega), hmultiple s' e' (by omega)]
  rw [hsum]
  unfold add
  dsimp only
  have hsigns := add_nonneg (hnonneg s e) (hnonneg s' e')
  obtain ⟨m, hm⟩ := Int.eq_ofNat_of_zero_le hsigns
  rw [hm]
  split
  · rename_i hzero
    refine ⟨0, 1, one_pos, by rw [hzero]; simp, rfl⟩
  · have h := rounds_roundDyadic (f := f) false m (min e e')
    rwa [decide_eq_false (by omega), Int.natAbs_natCast]

theorem rounds_ofNat : Rounds f false s (ofNat f s) := ⟨s, 1, one_pos, by simp, rfl⟩

theorem rounds_twoPow {k : ℤ} (hlow : -f.greatestPower ≤ k) (hhigh : k ≤ f.greatestPower) :
    Rounds f false (2 ^ k) (twoPow f k) := by
  have h := rounds_roundDyadic (f := f) false 1 k
  rw [Nat.cast_one, one_mul] at h
  rwa [twoPow, if_neg (by omega), if_neg (by omega)]

end Floating

end LesTokens
