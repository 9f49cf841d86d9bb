/-
The decimal of a float in base two or sixteen, which is read from its text. A float is written with
the digits of its shortest decimal and with zeros where the point stands outside of them
(`FloatNotation.positionalText`), so the number that is written there is that decimal
(`FloatNotation.written_plain`), which is no farther from the float than half a unit in its last
place.

**`Literal.decimalOfFloat?_eq_some`**: a float that is small enough has a decimal.
-/
import LesTokens.Proofs.DecimalSpellings

namespace LesTokens

/-! ## Digits on both sides of a point -/

namespace Decimal

theorem written_digits {integer fraction : Text} (hi : ∀ c ∈ integer, c.isDigit = true)
    (hf : ∀ c ∈ fraction, c.isDigit = true) : written integer fraction 0 =
      Nat.ofDigitChars 10 (integer ++ fraction) 0 / 10 ^ fraction.length := by
  rw [written_eq, valueOfDigits_dropWhile, decimalDigits_eq hi, decimalDigits_eq hf,
    ← List.map_append, valueOfDigits_map, List.length_map, sub_zero, zpow_natCast]

end Decimal

/-- A text before and behind its point. -/
def Text.splitPoint (t : Text) : Text × Text :=
  (t.takeWhile (· ≠ '.'), (t.dropWhile (· ≠ '.')).drop 1)

theorem ne_point_of_isDigit {t : Text} (h : ∀ c ∈ t, c.isDigit = true) :
    ∀ c ∈ t, decide (c ≠ '.') = true := by
  intro c hc
  refine decide_eq_true ?_
  rintro rfl
  exact absurd (h _ hc) (by decide)

theorem Text.splitPoint_digits {t : Text} (h : ∀ c ∈ t, c.isDigit = true) :
    t.splitPoint = (t, []) := by
  have hpoint := ne_point_of_isDigit h
  rw [splitPoint, List.takeWhile_eq_self_iff.2 hpoint, List.dropWhile_eq_nil_iff.2 hpoint,
    List.drop_nil]

theorem Text.splitPoint_append {t u : Text} (h : ∀ c ∈ t, c.isDigit = true) :
    (t ++ '.' :: u).splitPoint = (t, u) := by
  have hdrop : (t ++ '.' :: u).dropWhile (· ≠ '.') = '.' :: u :=
    dropWhile_append_eq_iff.2 ⟨ne_point_of_isDigit h, rfl⟩
  rw [splitPoint, hdrop, takeWhile_eq_of_dropWhile hdrop]
  rfl

namespace FloatNotation

open Floating FloatFormat

/-! ## Where the point stands -/

theorem isDigit_of_mem_zeros {k : ℕ} : ∀ c ∈ List.replicate k '0', c.isDigit = true := by
  intro c hc
  rw [(List.mem_replicate.1 hc).2]
  decide

theorem positionalText_of_le {digits : Text} {point : ℤ} (h : point ≤ 0) :
    positionalText false digits point =
      ['0'] ++ '.' :: (List.replicate (-point).toNat '0' ++ digits) := if_pos h

theorem positionalText_of_length_le {digits : Text} {point : ℤ} (hpos : 0 < point)
    (h : digits.length ≤ point) : positionalText false digits point =
      digits ++ List.replicate (point - digits.length).toNat '0' := by
  rw [positionalText, if_neg (Int.not_le.2 hpos), if_pos h]
  exact List.append_nil _

theorem positionalText_of_lt_length {digits : Text} {point : ℤ} (hpos : 0 < point)
    (h : point < digits.length) : positionalText false digits point =
      digits.take point.toNat ++ '.' :: digits.drop point.toNat := by
  rw [positionalText, if_neg (Int.not_le.2 hpos), if_neg (Int.not_le.2 h)]

/-- **Digits with a point stand for what they are without it**, shifted by a power of ten. -/
theorem written_positionalText {digits : Text} (h : ∀ c ∈ digits, c.isDigit = true) (point : ℤ) :
    Decimal.written (Text.splitPoint (positionalText false digits point)).1
      (Text.splitPoint (positionalText false digits point)).2 0 =
        Nat.ofDigitChars 10 digits 0 * 10 ^ (point - digits.length) := by
  have happend {t u : Text} (ht : ∀ c ∈ t, c.isDigit = true) (hu : ∀ c ∈ u, c.isDigit = true) :
      ∀ c ∈ t ++ u, c.isDigit = true := fun c hc => (List.mem_append.1 hc).elim (ht c) (hu c)
  rcases Int.lt_or_le 0 point with hpos | hle
  · rcases Int.lt_or_le point digits.length with hlt | hle
    · have htake : ∀ c ∈ digits.take point.toNat, c.isDigit = true :=
        fun c hc => h c (List.mem_of_mem_take hc)
      have hdrop : ∀ c ∈ digits.drop point.toNat, c.isDigit = true :=
        fun c hc => h c (List.mem_of_mem_drop hc)
      rw [positionalText_of_lt_length hpos hlt, Text.splitPoint_append htake,
        Decimal.written_digits htake hdrop, List.take_append_drop, List.length_drop, div_eq_mul_inv,
        ← zpow_natCast, ← zpow_neg]
      congr 2
      omega
    · have htext := happend h (isDigit_of_mem_zeros (k := (point - digits.length).toNat))
      rw [positionalText_of_length_le hpos hle, Text.splitPoint_digits htext,
        Decimal.written_digits htext (fun c hc => absurd hc List.not_mem_nil), List.append_nil,
        Nat.ofDigitChars_append, Nat.ofDigitChars_replicate_zero, List.length_nil, pow_zero,
        div_one, mul_comm]
      push_cast
      rw [← zpow_natCast, Int.toNat_of_nonneg (by omega)]
  · have hzero : ∀ c ∈ ['0'], c.isDigit = true := isDigit_of_mem_zeros (k := 1)
    have hfraction := happend (isDigit_of_mem_zeros (k := (-point).toNat)) h
    rw [positionalText_of_le hle, Text.splitPoint_append hzero,
      Decimal.written_digits hzero hfraction, Nat.ofDigitChars_append, Nat.ofDigitChars_append,
      Nat.ofDigitChars_replicate_zero, List.length_append, List.length_replicate]
    have hnone : Nat.ofDigitChars 10 ['0'] 0 = 0 := rfl
    rw [hnone, mul_zero, div_eq_mul_inv, ← zpow_natCast, ← zpow_neg]
    congr 2
    push_cast
    omega

/-- **A float is written as its shortest decimal.** -/
theorem written_plain {f : FloatFormat} (s : ℕ) (e : ℤ) :
    Decimal.written (Text.splitPoint (plain.write f (.finite false s e)).toList).1
      (Text.splitPoint (plain.write f (.finite false s e)).toList).2 0 =
        (ShortDecimal.ofFinite f .awayFromZero s e).significand *
          10 ^ (ShortDecimal.ofFinite f .awayFromZero s e).exponent := by
  have htext : (plain.write f (.finite false s e)).toList = positionalText false
      (Nat.toDigits 10 (ShortDecimal.ofFinite f .awayFromZero s e).significand)
      ((Nat.toDigits 10 (ShortDecimal.ofFinite f .awayFromZero s e).significand).length +
        (ShortDecimal.ofFinite f .awayFromZero s e).exponent) := by
    rw [write, String.toList_append, String.toList_ofList]
    rfl
  have hdigits (c : Char)
      (hc : c ∈ Nat.toDigits 10 (ShortDecimal.ofFinite f .awayFromZero s e).significand) :
      c.isDigit = true := Nat.isDigit_of_mem_toDigits (by decide) (by decide) hc
  rw [htext, written_positionalText hdigits,
    Nat.ofDigitChars_ten_toDigits, add_sub_cancel_left]

end FloatNotation

namespace Literal

open Floating FloatFormat

/-- **A float that is small enough has a decimal.** Its shortest decimal is at most half a unit
greater. -/
theorem decimalOfFloat?_eq_some {s : ℕ} {e : ℤ} (hs : double.Keeps s e)
    (hsmall : (s * 2 ^ e : ℚ) ≤ 2 ^ 90) (negative : Bool) :
    ∃ d, decimalOfFloat? (.finite false s e) negative = some d := by
  refine Option.ne_none_iff_exists'.1 fun hnone => ?_
  have hgreat := (Decimal.ofDigits?_roundsTo _ _ 0 negative).none_iff.1 hnone
  have hwritten := FloatNotation.written_plain (f := double) s e
  unfold Text.splitPoint at hwritten
  rw [hwritten] at hgreat
  rcases Nat.eq_zero_or_pos s with rfl | hpos
  · have hzero : ShortDecimal.ofFinite double .awayFromZero 0 e = ⟨0, 0⟩ := rfl
    rw [hzero] at hgreat
    norm_num at hgreat
  · have hshort := ShortDecimal.ofFinite_shortest .awayFromZero (by decide) hs hpos
    have hdist := (abs_le.1 hshort.reads.dist_le).2
    have hone : (1 : ℚ) ≤ s := by exact_mod_cast hpos
    have hunit : (2 : ℚ) ^ e ≤ s * 2 ^ e := le_mul_of_one_le_left (by positivity) hone
    norm_num at hgreat hsmall
    linarith

end Literal

end LesTokens
