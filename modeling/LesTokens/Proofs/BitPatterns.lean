/-
What rounding gives, told by bit patterns. Between a number of a format and the next one there is no
other (`FloatFormat.Keeps.gap`), so a number is rounded to the closest of all that the format holds,
of two to the one with the even significand (**`Floating.Rounds.closest`**). What the format holds
are the finite numbers that its bit patterns stand for (`Floating.hasPattern_iff`), and the bit
pattern is even if the significand is.

**`Floating.closest_withSign`**: so the closest magnitude, with its sign, is the closest number of
all bit patterns.
-/
import LesTokens.Floating.Bits
import LesTokens.Proofs.FloatValues

namespace LesTokens

namespace FloatFormat

variable {f : FloatFormat} {s s' : ℕ} {e e' : ℤ} {x : ℚ}

/-- A finite number of the format, without its sign. -/
structure Holds (f : FloatFormat) (s : ℕ) (e : ℤ) : Prop extends f.Keeps s e where
  le_max : e ≤ f.maxExponent

theorem holds_zero (hf : f.Proper) : f.Holds 0 f.minExponent :=
  ⟨⟨Nat.two_pow_pos _, .inr rfl, le_refl _⟩, hf.min_lt_max.le⟩

/-- What has no more bits than the format keeps, and is not too great, is one of its numbers. -/
theorem exists_holds (hf : f.Proper) {k : ℕ} (hk : k < 2 ^ f.precision) (he : f.minExponent ≤ e)
    (hlt : (k * 2 ^ e : ℚ) < 2 ^ (f.greatestPower + 1)) :
    ∃ s e', f.Holds s e' ∧ (s * 2 ^ e' : ℚ) = k * 2 ^ e := by
  obtain ⟨s, e', hs, hvalue⟩ := exists_keeps hf hk he
  exact ⟨s, e', ⟨hs, hs.le_max hf (by rwa [hvalue])⟩, hvalue⟩

/-- **There is no number of the format less than a unit above another one.** -/
theorem Keeps.gap (hf : f.Proper) (hs : f.Keeps s e) (hs' : f.Keeps s' e')
    (hlt : (s * 2 ^ e : ℚ) < s' * 2 ^ e') : ((s + 1 : ℕ) * 2 ^ e : ℚ) ≤ s' * 2 ^ e' := by
  by_contra hnot
  have hpos (e : ℤ) : (0 : ℚ) < 2 ^ e := by positivity
  have hunit : f.Unit (s' * 2 ^ e') e := by
    refine hs.unit hf hlt.le ?_
    push_cast at hnot
    exact not_le.1 hnot
  obtain rfl := hunit.unique (hs'.unit hf (le_refl _) (by nlinarith [hpos e']))
  have hlow : s < s' := by exact_mod_cast lt_of_mul_lt_mul_right hlt (hpos e).le
  have hhigh : s' < s + 1 := by exact_mod_cast lt_of_mul_lt_mul_right (not_le.1 hnot) (hpos e).le
  omega

theorem Unit.exists_floor (hf : f.Proper) (hx : 0 ≤ x) (h : f.Unit x e) :
    ∃ k, f.Keeps k e ∧ (k * 2 ^ e : ℚ) ≤ x ∧ x < (k + 1 : ℕ) * 2 ^ e := by
  have hpos : (0 : ℚ) < 2 ^ e := by positivity
  have hfloor := Nat.floor_le (show 0 ≤ x / 2 ^ e by positivity)
  have hceil := Nat.lt_floor_add_one (x / 2 ^ e)
  refine ⟨⌊x / 2 ^ e⌋₊, ⟨?_, ?_, h.min_le⟩, (le_div_iff₀ hpos).1 hfloor, ?_⟩
  · have hlt := h.lt
    rw [zpow_add_precision, ← div_lt_iff₀ hpos] at hlt
    exact_mod_cast lt_of_le_of_lt hfloor hlt
  · refine h.full.imp_left fun hfull => Nat.le_floor ?_
    rw [zpow_precision hf, ← le_div_iff₀ hpos] at hfull
    exact_mod_cast hfull
  · push_cast
    exact (div_lt_iff₀ hpos).1 hceil

/-- **What the format holds is no closer than a multiple of the unit.** It stands at the greatest
multiple that is not beyond, or below that, or a unit above it, or farther. -/
theorem Keeps.exists_closer {k : ℕ} (hf : f.Proper) (hk : f.Keeps k e)
    (hlow : (k * 2 ^ e : ℚ) ≤ x) (hhigh : x < (k + 1 : ℕ) * 2 ^ e) (hs : f.Keeps s' e') :
    ∃ j : ℕ, |j * 2 ^ e - x| ≤ |s' * 2 ^ e' - x| ∧
      (|s' * 2 ^ e' - x| = |j * 2 ^ e - x| → (s' * 2 ^ e' : ℚ) = j * 2 ^ e) := by
  rcases lt_or_ge (k * 2 ^ e : ℚ) (s' * 2 ^ e') with hlt | hle
  · have hge := hk.gap hf hs hlt
    refine ⟨k + 1, ?_, fun heq => ?_⟩
    · rw [abs_of_nonneg (by linarith), abs_of_nonneg (by linarith)]
      linarith
    · rw [abs_of_nonneg (by linarith), abs_of_nonneg (by linarith)] at heq
      linarith
  · refine ⟨k, ?_, fun heq => ?_⟩
    · rw [abs_of_nonpos (by linarith), abs_of_nonpos (by linarith)]
      linarith
    · rw [abs_of_nonpos (by linarith), abs_of_nonpos (by linarith)] at heq
      linarith

/-! ## The closest magnitude -/

/-- A number of the format is closest to another number if no other one is closer, and if another
one is as close only if its own significand is even. -/
structure Closest (f : FloatFormat) (x : ℚ) (s : ℕ) (e : ℤ) : Prop where
  holds : f.Holds s e
  closest : ∀ s' e', f.Holds s' e' → |s * 2 ^ e - x| ≤ |s' * 2 ^ e' - x|
  even : ∀ s' e', f.Holds s' e' → |s' * 2 ^ e' - x| = |s * 2 ^ e - x| →
    (s' * 2 ^ e' : ℚ) ≠ s * 2 ^ e → s % 2 = 0

end FloatFormat

namespace Floating

open FloatFormat

variable {f : FloatFormat} {s t : ℕ} {e u : ℤ} {x : ℚ} {negative : Bool}

theorem Nearest.dist_le {y : ℚ} (h : Nearest t y) (k : ℕ) : |t - y| ≤ |k - y| := by
  by_contra hnot
  have hlt := not_le.1 hnot
  have hk := h.eq_of_lt (lt_of_lt_of_le hlt h.1)
  rw [hk] at hlt
  exact lt_irrefl _ hlt

theorem Nearest.even_of_dist_eq {y : ℚ} (h : Nearest t y) {k : ℕ} (hk : |k - y| = |t - y|)
    (hne : k ≠ t) : t % 2 = 0 := by
  rcases lt_or_eq_of_le h.1 with hlt | heq
  · exact absurd (h.eq_of_lt (hk ▸ hlt)).symm hne
  · exact h.2 heq

/-- In units of its last bit a number is rounded to the closest number of its format. -/
theorem closest_of_nearest (hf : f.Proper) (hx : 0 ≤ x) (hu : f.Unit x u)
    (ht : Nearest t (x / 2 ^ u)) (hs : f.Holds s e) (hvalue : (s * 2 ^ e : ℚ) = t * 2 ^ u)
    (heven : t % 2 = 0 → s % 2 = 0) : f.Closest x s e := by
  have hpos : (0 : ℚ) < 2 ^ u := by positivity
  obtain ⟨k, hk, hlow, hhigh⟩ := hu.exists_floor hf hx
  have hdist (j : ℕ) : |j * 2 ^ u - x| = |j - x / 2 ^ u| * 2 ^ u := by
    rw [← abs_of_pos hpos, ← abs_mul, abs_of_pos hpos, sub_mul, div_mul_cancel₀ _ hpos.ne']
  refine ⟨hs, fun s' e' hs' => ?_, fun s' e' hs' heq hne => heven ?_⟩
  · obtain ⟨j, hj, -⟩ := hk.exists_closer hf hlow hhigh hs'.toKeeps
    refine le_trans ?_ hj
    rw [hvalue, hdist, hdist]
    exact mul_le_mul_of_nonneg_right (ht.dist_le j) hpos.le
  · obtain ⟨j, hj, hat⟩ := hk.exists_closer hf hlow hhigh hs'.toKeeps
    have hle : |(t : ℚ) - x / 2 ^ u| * 2 ^ u ≤ |(j : ℚ) - x / 2 ^ u| * 2 ^ u :=
      mul_le_mul_of_nonneg_right (ht.dist_le j) hpos.le
    rw [heq, hvalue, hdist, hdist] at hj
    have hsame : |(j : ℚ) - x / 2 ^ u| = |(t : ℚ) - x / 2 ^ u| :=
      mul_right_cancel₀ hpos.ne' (le_antisymm hj hle)
    refine ht.even_of_dist_eq hsame fun hjt => hne ?_
    rw [hat (by rw [heq, hvalue, hdist, hdist, hsame]), hjt, hvalue]

/-- **What is finite after rounding is the closest number of the format.** -/
theorem Rounds.closest (hf : f.Proper) (hp : 1 < f.precision) (hx : 0 ≤ x)
    (h : Rounds f negative x (finite negative s e)) : f.Closest x s e := by
  obtain ⟨t, u, hu, ht, hpack⟩ := h.exists_pack hf
  obtain ⟨hle, hfull⟩ := ht.bits hf hu
  have htwo := two_pow_precision hf
  unfold pack at hpack
  by_cases hcarry : t = 2 ^ f.precision
  · rw [if_pos hcarry] at hpack
    dsimp only at hpack
    split at hpack
    · cases hpack
    · obtain ⟨-, rfl, rfl⟩ := finite.inj hpack
      have hpos := Nat.two_pow_pos (f.precision - 1)
      have hmin := hu.min_le
      refine closest_of_nearest hf hx hu ht ⟨⟨by omega, .inl (le_refl _), by omega⟩, by omega⟩ ?_
        fun _ => two_pow_even hp
      rw [hcarry, ← htwo, zpow_add_one₀ two_ne_zero]
      push_cast
      ring
  · rw [if_neg hcarry] at hpack
    dsimp only at hpack
    split at hpack
    · cases hpack
    · obtain ⟨-, rfl, rfl⟩ := finite.inj hpack
      exact closest_of_nearest hf hx hu ht ⟨⟨by omega, hfull, hu.min_le⟩, by omega⟩ rfl id

/-! ## Bit patterns -/

/-- A magnitude with a sign. -/
def withSign (negative : Bool) (x : ℚ) : ℚ := if negative then -x else x

/-- The rational number that a finite number is. -/
def value : Floating → ℚ
  | finite negative s e => withSign negative (s * 2 ^ e)
  | _ => 0

/-- Whether a number is finite and one of those that the bit patterns of a format stand for. -/
structure HasPattern (f : FloatFormat) (v : Floating) : Prop where
  finite : v.isFinite = true
  pattern : ∃ bits < 2 * signWeight f, ofBits f bits = v

/-- A number with a bit pattern is closest to a rational number if no other one is closer, and if
one of another value is as close only if its own bit pattern is even. -/
structure Closest (f : FloatFormat) (x : ℚ) (v : Floating) : Prop where
  pattern : HasPattern f v
  closest : ∀ w, HasPattern f w → |v.value - x| ≤ |w.value - x|
  even : ∀ w, HasPattern f w → |w.value - x| = |v.value - x| → w.value ≠ v.value →
    toBits f v % 2 = 0

theorem exponentWeight_pos (f : FloatFormat) : 0 < exponentWeight f := Nat.two_pow_pos _

theorem exponentWeight_mul_two (hf : f.Proper) : exponentWeight f * 2 = 2 ^ f.precision :=
  two_pow_precision hf

theorem ofBits_fields (f : FloatFormat) (negative : Bool) {biased fraction : ℕ}
    (hb : biased ≤ specialExponent f) (hfraction : fraction < exponentWeight f) :
    negative.toNat * signWeight f + (exponentWeight f * biased + fraction) < 2 * signWeight f ∧
    ofBits f (negative.toNat * signWeight f + (exponentWeight f * biased + fraction)) =
      if biased = specialExponent f then if fraction = 0 then infinite negative else nan
      else if biased = 0 then finite negative fraction f.minExponent
      else finite negative (exponentWeight f + fraction) (f.minExponent + biased - 1) := by
  have hweight := exponentWeight_pos f
  have hlt : exponentWeight f * biased + fraction < signWeight f := by
    have hle : exponentWeight f * (biased + 1) ≤ signWeight f :=
      Nat.mul_le_mul_left _ (Nat.succ_le_succ hb)
    rw [Nat.mul_succ] at hle
    omega
  have hsign : signWeight f ≤
      negative.toNat * signWeight f + (exponentWeight f * biased + fraction) ↔
        negative = true := by
    cases negative with
    | false => simpa using hlt
    | true => simp
  have hmod : (negative.toNat * signWeight f + (exponentWeight f * biased + fraction)) %
      signWeight f = exponentWeight f * biased + fraction := by
    rw [Nat.mul_add_mod_self_right, Nat.mod_eq_of_lt hlt]
  have hdiv : (exponentWeight f * biased + fraction) / exponentWeight f = biased := by
    rw [Nat.mul_add_div hweight, Nat.div_eq_of_lt hfraction, Nat.add_zero]
  have hrem : (exponentWeight f * biased + fraction) % exponentWeight f = fraction := by
    rw [Nat.mul_add_mod, Nat.mod_eq_of_lt hfraction]
  constructor
  · cases negative with
    | false =>
      simp only [Bool.toNat_false]
      omega
    | true =>
      simp only [Bool.toNat_true]
      omega
  · unfold ofBits
    dsimp only
    rw [hmod, hdiv, hrem]
    simp only [hsign, Bool.decide_eq_true]

theorem toBits_fields (negative : Bool) (hs : f.Holds s e) (hf : f.Proper) :
    ∃ biased fraction, biased < specialExponent f ∧ fraction < exponentWeight f ∧
      toBits f (finite negative s e) =
        negative.toNat * signWeight f + (exponentWeight f * biased + fraction) ∧
      (if biased = 0 then finite negative fraction f.minExponent
        else finite negative (exponentWeight f + fraction) (f.minExponent + biased - 1)) =
          finite negative s e := by
  have htwo := exponentWeight_mul_two hf
  have hlt := hs.lt
  have hmin := hs.min_le
  have hmax := hs.le_max
  have hspecial : (specialExponent f : ℤ) = f.maxExponent - f.minExponent + 2 :=
    Int.toNat_of_nonneg (by omega)
  unfold toBits
  by_cases hsmall : s < exponentWeight f
  · have he : e = f.minExponent := hs.full.resolve_left (Nat.not_le.2 hsmall)
    refine ⟨0, s, by omega, hsmall, ?_, ?_⟩
    · simp only [if_pos hsmall, Nat.mul_zero, Nat.zero_add, Nat.add_zero]
    · rw [if_pos rfl, he]
  · obtain ⟨k, rfl⟩ : ∃ k : ℕ, e = f.minExponent + k := ⟨(e - f.minExponent).toNat, by omega⟩
    refine ⟨k + 1, s - exponentWeight f, by omega, by omega, ?_, ?_⟩
    · simp only [if_neg hsmall, add_sub_cancel_left, Int.toNat_natCast, Nat.mul_succ]
      omega
    · rw [if_neg (Nat.succ_ne_zero k)]
      congr 1
      · omega
      · push_cast
        omega

/-- **The bit pattern of a finite number stands for it.** -/
theorem ofBits_toBits (negative : Bool) (hf : f.Proper) (hs : f.Holds s e) :
    toBits f (finite negative s e) < 2 * signWeight f ∧
      ofBits f (toBits f (finite negative s e)) = finite negative s e := by
  obtain ⟨biased, fraction, hb, hfraction, hbits, hfields⟩ := toBits_fields negative hs hf
  obtain ⟨hlt, hvalue⟩ := ofBits_fields f negative hb.le hfraction
  rw [hbits, hvalue, if_neg hb.ne]
  exact ⟨hlt, hfields⟩

/-- **The finite numbers with a bit pattern are those that the format holds**, with a sign. -/
theorem hasPattern_iff (hf : f.Proper) {v : Floating} :
    HasPattern f v ↔ ∃ negative s e, f.Holds s e ∧ v = finite negative s e := by
  constructor
  · rintro ⟨hfinite, bits, -, rfl⟩
    have hweight := exponentWeight_pos f
    have htwo := exponentWeight_mul_two hf
    have hmin := hf.min_lt_max
    have hspecial : (specialExponent f : ℤ) = f.maxExponent - f.minExponent + 2 :=
      Int.toNat_of_nonneg (by omega)
    have hfraction := Nat.mod_lt (bits % signWeight f) hweight
    have hbiased : bits % signWeight f / exponentWeight f < specialExponent f + 1 :=
      (Nat.div_lt_iff_lt_mul hweight).2 (by
        rw [Nat.mul_comm]
        exact Nat.mod_lt bits (Nat.mul_pos hweight (Nat.succ_pos _)))
    unfold ofBits at hfinite ⊢
    dsimp only at hfinite ⊢
    generalize bits % signWeight f / exponentWeight f = biased at *
    generalize bits % signWeight f % exponentWeight f = fraction at *
    split at hfinite
    · split at hfinite <;> cases hfinite
    · rename_i hne
      rw [if_neg hne]
      split
      · exact ⟨_, _, _, ⟨⟨by omega, .inr rfl, le_refl _⟩, hmin.le⟩, rfl⟩
      · refine ⟨_, _, _, ⟨⟨by omega, .inl ?_, by omega⟩, by omega⟩, rfl⟩
        exact Nat.le_add_right _ _
  · rintro ⟨negative, s, e, hs, rfl⟩
    obtain ⟨hlt, hvalue⟩ := ofBits_toBits negative hf hs
    exact ⟨rfl, _, hlt, hvalue⟩

theorem even_toBits (negative : Bool) (hp : 1 < f.precision) (hs : s % 2 = 0) (e : ℤ) :
    toBits f (finite negative s e) % 2 = 0 := by
  have hweight : 2 ∣ exponentWeight f := Nat.dvd_of_mod_eq_zero (two_pow_even hp)
  have hsign : 2 ∣ signWeight f := hweight.mul_right _
  refine Nat.mod_eq_zero_of_dvd (Nat.dvd_add (Nat.dvd_add ?_ ?_) (Nat.dvd_of_mod_eq_zero hs))
  · exact hsign.mul_left _
  · exact hweight.mul_right _

theorem value_finite (negative : Bool) (s : ℕ) (e : ℤ) :
    value (finite negative s e) = withSign negative (s * 2 ^ e) := rfl

theorem dist_withSign (negative : Bool) (x y : ℚ) :
    |withSign negative x - withSign negative y| = |x - y| := by
  cases negative with
  | false => rfl
  | true =>
    show |-x - -y| = |x - y|
    rw [neg_sub_neg, abs_sub_comm]

/-- **No number is closer than a magnitude with the sign of what is rounded**: a number of the other
sign is no closer than zero. -/
theorem HasPattern.exists_closer (negative : Bool) (hf : f.Proper) (hx : 0 ≤ x) {w : Floating}
    (hw : HasPattern f w) : ∃ s e, f.Holds s e ∧ |s * 2 ^ e - x| ≤ |w.value - withSign negative x| ∧
      (|w.value - withSign negative x| = |s * 2 ^ e - x| →
        w.value = withSign negative (s * 2 ^ e)) := by
  obtain ⟨negative', s, e, hs, rfl⟩ := (hasPattern_iff hf).1 hw
  by_cases hsign : negative' = negative
  · subst hsign
    refine ⟨s, e, hs, ?_, fun _ => rfl⟩
    rw [value_finite, dist_withSign]
  · have hnonneg : (0 : ℚ) ≤ s * 2 ^ e := by positivity
    have hother : value (.finite negative' s e) = withSign negative (-(s * 2 ^ e)) := by
      cases negative <;> cases negative' <;> simp_all [withSign, value]
    refine ⟨0, f.minExponent, holds_zero hf, ?_, fun heq => ?_⟩
    · rw [hother, dist_withSign, Nat.cast_zero, zero_mul, abs_of_nonpos (by linarith),
        abs_of_nonpos (by linarith)]
      linarith
    · rw [hother, dist_withSign, Nat.cast_zero, zero_mul, abs_of_nonpos (by linarith),
        abs_of_nonpos (by linarith)] at heq
      rw [hother, Nat.cast_zero, zero_mul, show (s * 2 ^ e : ℚ) = 0 by linarith, neg_zero]

/-- **The closest magnitude is the closest number**, with the sign of what is rounded. -/
theorem closest_withSign (negative : Bool) (hf : f.Proper) (hp : 1 < f.precision) (hx : 0 ≤ x)
    (h : f.Closest x s e) : Closest f (withSign negative x) (finite negative s e) := by
  have hvalue := value_finite negative s e
  constructor
  case pattern => exact (hasPattern_iff hf).2 ⟨_, _, _, h.holds, rfl⟩
  case closest =>
    intro w hw
    obtain ⟨s', e', hs', hle, -⟩ := hw.exists_closer negative hf hx
    rw [hvalue, dist_withSign]
    exact (h.closest s' e' hs').trans hle
  case even =>
    intro w hw heq hne
    obtain ⟨s', e', hs', hle, hat⟩ := hw.exists_closer negative hf hx
    rw [hvalue, dist_withSign] at heq
    have hsame : |s' * 2 ^ e' - x| = |s * 2 ^ e - x| :=
      le_antisymm (hle.trans_eq heq) (h.closest s' e' hs')
    refine even_toBits negative hp (h.even s' e' hs' hsame fun he => hne ?_) e
    rw [hat (heq.trans hsame.symm), he, hvalue]

end Floating
end LesTokens
