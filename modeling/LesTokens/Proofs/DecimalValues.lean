/-
Decimals as numbers. A decimal stands for its magnitude with its sign over a power of ten
(`Decimal.toRat`), and trailing zeros after the point count for nothing
(`Decimal.toRat_normalized`). In the form that decimals are kept in, a number has one decimal
(`Decimal.Canonical.ext_toRat`), and so has a text, because a decimal is read back from it.

**`Decimal.one_form`**: whatever constructor gives two decimals, they are the same one exactly if
they stand for the same number, and exactly if they are shown as the same text.
-/
import LesTokens.Proofs.NumberRoundTrip
import Mathlib

namespace LesTokens.Decimal

/-! ## The number a decimal stands for -/

/-- A magnitude with a sign. -/
def signed (mantissa : Nat) (negative : Bool) : Int := if negative then -mantissa else mantissa

/-- The number that a decimal stands for. -/
def toRat (d : Decimal) : ℚ := signed d.mantissa d.negative / 10 ^ d.scale

theorem natAbs_signed (mantissa : Nat) (negative : Bool) :
    (signed mantissa negative).natAbs = mantissa := by
  cases negative with
  | false => rfl
  | true => exact Int.natAbs_neg mantissa

theorem signed_mul (mantissa n : Nat) (negative : Bool) :
    signed (mantissa * n) negative = signed mantissa negative * n := by
  cases negative <;> simp [signed]

/-- **A decimal stands for the number it is made of**, without the zeros that are removed. -/
theorem toRat_normalized (mantissa scale : Nat) (negative : Bool) :
    (normalized mantissa scale negative).toRat = signed mantissa negative / 10 ^ scale := by
  fun_induction normalized mantissa scale negative with
  | case1 mantissa =>
    have hzero : signed mantissa (negative && mantissa != 0) = signed mantissa negative := by
      by_cases hm : mantissa = 0
      · subst hm
        cases negative <;> rfl
      · rw [bne_iff_ne.2 hm, Bool.and_true]
    rw [toRat, hzero]
  | case2 mantissa scale h ih =>
    have hten : mantissa / 10 * 10 = mantissa := Nat.div_mul_cancel (Nat.dvd_of_mod_eq_zero h)
    calc (normalized (mantissa / 10) scale negative).toRat
        = signed (mantissa / 10) negative / 10 ^ scale := ih
      _ = signed (mantissa / 10) negative * 10 / 10 ^ (scale + 1) := by
          rw [pow_succ, mul_div_mul_right _ _ (by norm_num)]
      _ = (signed (mantissa / 10 * 10) negative : Int) / 10 ^ (scale + 1) := by
          rw [signed_mul, Int.cast_mul]
          norm_num
      _ = signed mantissa negative / 10 ^ (scale + 1) := by rw [hten]
  | case3 mantissa scale h => rfl

/-! ## One decimal for each number -/

namespace Canonical

variable {d d' : Decimal}

theorem scale_le (h' : d'.Canonical)
    (he : d.mantissa * 10 ^ d'.scale = d'.mantissa * 10 ^ d.scale) : d'.scale ≤ d.scale := by
  refine Nat.le_of_not_lt fun hlt => ?_
  obtain ⟨k, hk⟩ := Nat.exists_eq_add_of_lt hlt
  have hmul : d.mantissa * 10 ^ k * 10 * 10 ^ d.scale = d'.mantissa * 10 ^ d.scale := by
    rw [← he, hk]
    ring
  have hten : d'.mantissa = d.mantissa * 10 ^ k * 10 :=
    (Nat.eq_of_mul_eq_mul_right (by positivity) hmul).symm
  rcases h'.shortest with hzero | hmod
  · omega
  · exact hmod (by rw [hten, Nat.mul_mod_left])

theorem negative_iff (h : d.Canonical) : d.negative = true ↔ signed d.mantissa d.negative < 0 := by
  cases hn : d.negative with
  | false => exact iff_of_false Bool.false_ne_true (Int.not_lt.2 (Int.natCast_nonneg d.mantissa))
  | true =>
    have hpos : 0 < d.mantissa := Nat.pos_of_ne_zero (h.nonzero hn)
    refine iff_of_true rfl ?_
    show -(d.mantissa : Int) < 0
    omega

/-- **Decimals of one number are one decimal.** -/
theorem ext_toRat (h : d.Canonical) (h' : d'.Canonical) (he : d.toRat = d'.toRat) : d = d' := by
  have hcross : signed d.mantissa d.negative * 10 ^ d'.scale =
      signed d'.mantissa d'.negative * 10 ^ d.scale := by
    rw [toRat, toRat, div_eq_div_iff (by positivity) (by positivity)] at he
    exact_mod_cast he
  have habs : d.mantissa * 10 ^ d'.scale = d'.mantissa * 10 ^ d.scale := by
    have hnat := congrArg Int.natAbs hcross
    rwa [Int.natAbs_mul, Int.natAbs_mul, natAbs_signed, natAbs_signed, Int.natAbs_pow,
      Int.natAbs_pow] at hnat
  have hscale : d.scale = d'.scale := Nat.le_antisymm (h.scale_le habs.symm) (h'.scale_le habs)
  rw [hscale] at habs hcross
  have hmantissa : d.mantissa = d'.mantissa := Nat.eq_of_mul_eq_mul_right (by positivity) habs
  have hsigned : signed d.mantissa d.negative = signed d'.mantissa d'.negative :=
    Int.eq_of_mul_eq_mul_right (by positivity) hcross
  have hnegative : d.negative = d'.negative := by
    rw [Bool.eq_iff_iff, h.negative_iff, h'.negative_iff, hsigned]
  obtain ⟨mantissa, scale, negative⟩ := d
  obtain ⟨mantissa', scale', negative'⟩ := d'
  rw [Decimal.mk.injEq]
  exact ⟨hmantissa, hscale, hnegative⟩

/-- **Decimals of one text are one decimal.** -/
theorem ext_render (h : d.Canonical) (h' : d'.Canonical) (he : d.render = d'.render) : d = d' := by
  have hread := h.readNumber_render
  have htext : (Value.decimal d).render = (Value.decimal d').render := congrArg (· ++ "m") he
  rw [htext, h'.readNumber_render] at hread
  cases hread
  rfl

end Canonical

/-! ## Both constructors -/

theorem ofParts?_toRat {mantissa scale : Nat} {negative : Bool} {d : Decimal}
    (h : ofParts? mantissa scale negative = some d) :
    d.toRat = signed mantissa negative / 10 ^ scale := by
  unfold ofParts? at h
  split at h
  · obtain rfl := Option.some.inj h
    exact toRat_normalized mantissa scale negative
  · cases h

theorem ofParts?_eq_none_iff {mantissa scale : Nat} {negative : Bool} :
    ofParts? mantissa scale negative = none ↔ 2 ^ 96 ≤ mantissa ∨ 28 < scale := by
  have hmax : maxMantissa = 2 ^ 96 - 1 := rfl
  have hscale : maxScale = 28 := rfl
  unfold ofParts?
  split
  · exact iff_of_false (by simp) (by omega)
  · exact iff_of_true rfl (by omega)

/-- **Decimals are kept in one form.** Parts make a decimal exactly if they are within bounds, and
it stands for the number they are. What either constructor gives is within bounds, has no trailing
zero after the point and is no negative zero; and of two such decimals each is the other exactly if
they stand for one number, and exactly if they are shown as one text. -/
theorem one_form :
    (∀ (mantissa scale : Nat) (negative : Bool),
      (ofParts? mantissa scale negative = none ↔ 2 ^ 96 ≤ mantissa ∨ 28 < scale) ∧
      ∀ d, ofParts? mantissa scale negative = some d →
        d.toRat = signed mantissa negative / 10 ^ scale) ∧
    (∀ d, Obtained d → d.mantissa < 2 ^ 96 ∧ d.scale ≤ 28 ∧
      (d.scale = 0 ∨ ¬10 ∣ d.mantissa) ∧ (d.mantissa = 0 → d.negative = false)) ∧
    ∀ d d', Obtained d → Obtained d' →
      (d = d' ↔ d.toRat = d'.toRat) ∧ (d = d' ↔ d.render = d'.render) := by
  refine ⟨fun mantissa scale negative => ⟨ofParts?_eq_none_iff, fun d => ofParts?_toRat⟩, ?_, ?_⟩
  · intro d hd
    obtain ⟨hmantissa, hscale, hshortest, hnonzero⟩ := canonical_of_obtained hd
    have hmax : maxMantissa = 2 ^ 96 - 1 := rfl
    refine ⟨by omega, hscale, hshortest.imp_right fun hmod hdvd => ?_, fun hzero => ?_⟩
    · exact hmod (Nat.mod_eq_zero_of_dvd hdvd)
    · rw [Bool.eq_false_iff]
      exact fun hnegative => hnonzero hnegative hzero
  · intro d d' hd hd'
    refine ⟨⟨congrArg toRat, ?_⟩, ⟨congrArg render, ?_⟩⟩
    · exact (canonical_of_obtained hd).ext_toRat (canonical_of_obtained hd')
    · exact (canonical_of_obtained hd).ext_render (canonical_of_obtained hd')

/-- A quarter with a zero after it, made of its parts, and read from digits and an exponent. -/
theorem one_form_quarter :
    ∃ d d', ofParts? 250 3 true = some d ∧ ofDigits? ['2'] ['5', '0'] (-1) true = some d' ∧
      d.toRat = ((-250 : Int) : ℚ) / 10 ^ 3 ∧ (d = d' ↔ d.toRat = d'.toRat) ∧
      (d = d' ↔ d.render = d'.render) := by
  have hparts : ofParts? 250 3 true = some ⟨25, 2, true⟩ := by decide +kernel
  have hdigits : ofDigits? ['2'] ['5', '0'] (-1) true = some ⟨25, 2, true⟩ := by decide +kernel
  obtain ⟨hmade, -, hunique⟩ := one_form
  exact ⟨_, _, hparts, hdigits, (hmade 250 3 true).2 _ hparts,
    hunique _ _ (.ofParts hparts) (.ofDigits hdigits)⟩

end LesTokens.Decimal
