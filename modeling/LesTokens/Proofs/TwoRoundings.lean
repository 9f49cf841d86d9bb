/-
Numbers that are rounded twice. A float of 32 bits in base ten is rounded to 64 bits first. That
moves it no farther than to the middle between two neighbours of 32 bits
(`FloatFormat.Widens.exists_halfway`), so what is rounded again is rounded to the closest number
after all, unless it has become a tie (`FloatFormat.exists_tie`): then the one with the even bit
pattern is taken, be it the closer one or not.

**`readNumber_narrowed`**: so a float of 32 bits is the closest one exactly if no other one is as
close to the float of 64 bits, and closer to the number that is read. That is the one that is
written, unless its exponent is cut (`Literal.ReadAs`).
-/
import LesTokens.Proofs.BitPatterns
import LesTokens.Proofs.SmallNumbers

namespace LesTokens

namespace FloatFormat

variable {f g : FloatFormat} {s d a : ℕ} {e u b : ℤ} {x : ℚ}

/-! ## A wider format -/

/-- A format that has a bit more than another one at every exponent. -/
structure Widens (g f : FloatFormat) : Prop where
  precision_lt : f.precision < g.precision
  min_lt : g.minExponent < f.minExponent
  greatest_lt : f.greatestPower < g.greatestPower

theorem double_widens_single : double.Widens single := ⟨by decide, by decide, by decide⟩

theorem Widens.exists_holds (hw : g.Widens f) (hg : g.Proper) (hs : s < 2 ^ (f.precision + 1))
    (he : f.minExponent - 1 ≤ e) (hlt : (s * 2 ^ e : ℚ) < 2 ^ (f.greatestPower + 1)) :
    ∃ m v, g.Holds m v ∧ (m * 2 ^ v : ℚ) = s * 2 ^ e := by
  have hprecision := hw.precision_lt
  have hmin := hw.min_lt
  have hgreatest := hw.greatest_lt
  refine FloatFormat.exists_holds hg (hs.trans_le ?_) (by omega) (hlt.trans_le ?_)
  · exact Nat.pow_le_pow_right two_pos hprecision
  · exact zpow_le_zpow_right₀ one_le_two (by omega)

theorem Widens.exists_same (hw : g.Widens f) (hf : f.Proper) (hg : g.Proper) (hs : f.Holds s e) :
    ∃ m v, g.Holds m v ∧ (m * 2 ^ v : ℚ) = s * 2 ^ e := by
  have hmin := hs.min_le
  refine hw.exists_holds hg (hs.lt.trans ?_) (by omega) (hs.lt_greatest hf hs.le_max)
  exact Nat.pow_lt_pow_right one_lt_two (Nat.lt_succ_self _)

/-- **The wider format has the middle between a number of the other one and the next.** -/
theorem Widens.exists_halfway (hw : g.Widens f) (hg : g.Proper) (hs : f.Keeps s e)
    (hlt : ((s + 1 : ℕ) * 2 ^ e : ℚ) < 2 ^ (f.greatestPower + 1)) :
    ∃ m v, g.Holds m v ∧ (m * 2 ^ v : ℚ) = s * 2 ^ e + 2 ^ e / 2 := by
  have hbits := hs.lt
  have hmin := hs.min_le
  have hpos : (0 : ℚ) < 2 ^ e := by positivity
  have hvalue : ((2 * s + 1 : ℕ) * 2 ^ (e - 1) : ℚ) = s * 2 ^ e + 2 ^ e / 2 := by
    rw [zpow_sub_one₀ two_ne_zero]
    push_cast
    ring
  push_cast at hlt
  obtain ⟨m, v, hm, heq⟩ := hw.exists_holds (s := 2 * s + 1) (e := e - 1) hg
    (by rw [pow_succ]; omega) (by omega) (by rw [hvalue]; linarith)
  exact ⟨m, v, hm, heq.trans hvalue⟩

/-! ## Neighbours -/

theorem Keeps.exists_next (hf : f.Proper) (hs : f.Keeps s e) :
    ∃ n v, f.Keeps n v ∧ (n * 2 ^ v : ℚ) = (s + 1 : ℕ) * 2 ^ e := by
  have htwo := two_pow_precision hf
  have hpos := Nat.two_pow_pos (f.precision - 1)
  have hmin := hs.min_le
  by_cases hcarry : s + 1 = 2 ^ f.precision
  · refine ⟨2 ^ (f.precision - 1), e + 1, ⟨by omega, .inl (le_refl _), by omega⟩, ?_⟩
    rw [hcarry, ← htwo, zpow_add_one₀ two_ne_zero]
    push_cast
    ring
  · have hlt := hs.lt
    exact ⟨s + 1, e, ⟨by omega, hs.full.imp_left Nat.le_succ_of_le, hmin⟩, rfl⟩

theorem Keeps.exists_previous (hf : f.Proper) (hs : f.Keeps s e) (hpos : 0 < s) :
    ∃ p v, f.Keeps p v ∧ v ≤ e ∧ ((p + 1 : ℕ) * 2 ^ v : ℚ) = s * 2 ^ e := by
  have htwo := two_pow_precision hf
  have hlt := hs.lt
  have hmin := hs.min_le
  by_cases hfull : 2 ^ (f.precision - 1) ≤ s - 1 ∨ e = f.minExponent
  · exact ⟨s - 1, e, ⟨by omega, hfull, hmin⟩, le_refl _, by rw [Nat.sub_add_cancel hpos]⟩
  · -- Below a power of two the last bit is another one.
    rw [not_or] at hfull
    have hs' : s = 2 ^ (f.precision - 1) := by
      have := hs.full.resolve_right hfull.2
      omega
    have hpower := Nat.two_pow_pos f.precision
    refine ⟨2 ^ f.precision - 1, e - 1, ⟨by omega, .inl (by omega), by omega⟩, by omega, ?_⟩
    rw [Nat.sub_add_cancel hpower, hs', ← htwo, zpow_sub_one₀ two_ne_zero]
    push_cast
    ring

/-! ## Two roundings -/

/-- The closest number is no less than a number of the format that is not beyond what is rounded. -/
theorem Closest.le_of_le (h : g.Closest x d u) (ha : g.Holds a b) (hle : (a * 2 ^ b : ℚ) ≤ x) :
    (a * 2 ^ b : ℚ) ≤ d * 2 ^ u := by
  by_contra hnot
  have hlt := not_le.1 hnot
  have hclosest := h.closest a b ha
  rw [abs_of_nonpos (by linarith), abs_of_nonpos (by linarith)] at hclosest
  linarith

theorem Closest.ge_of_ge (h : g.Closest x d u) (ha : g.Holds a b) (hle : x ≤ (a * 2 ^ b : ℚ)) :
    (d * 2 ^ u : ℚ) ≤ a * 2 ^ b := by
  by_contra hnot
  have hlt := not_le.1 hnot
  have hclosest := h.closest a b ha
  rw [abs_of_nonneg (by linarith), abs_of_nonneg (by linarith)] at hclosest
  linarith

/-- A number of the format that is as close to a rational number as `s * 2 ^ e`, and is not that. -/
structure Tie (f : FloatFormat) (y : ℚ) (s : ℕ) (e : ℤ) (o : ℕ) (v : ℤ) : Prop where
  holds : f.Holds o v
  other : (o * 2 ^ v : ℚ) ≠ s * 2 ^ e
  dist_eq : |o * 2 ^ v - y| = |s * 2 ^ e - y|

section

variable (hf : f.Proper) (hg : g.Proper) (hw : g.Widens f)

include hf hg hw

/-- If a number beyond the result of two roundings is as close, the first one gave a tie. -/
theorem exists_tie_above (hd : g.Closest x d u) (hs : f.Closest (d * 2 ^ u) s e) (ha : f.Holds a b)
    (hlt : (s * 2 ^ e : ℚ) < a * 2 ^ b) (hnear : |a * 2 ^ b - x| ≤ |s * 2 ^ e - x|) :
    ∃ o v, f.Tie (d * 2 ^ u) s e o v ∧ |o * 2 ^ v - x| ≤ |a * 2 ^ b - x| := by
  have hpos : (0 : ℚ) < 2 ^ e := by positivity
  obtain ⟨o, v, ho, hnext⟩ := hs.holds.toKeeps.exists_next hf
  -- The next number is not beyond the other one, and so the format has it, and the wider one the
  -- middle before it.
  have hgap := hs.holds.toKeeps.gap hf ha.toKeeps hlt
  have hgreatest := hgap.trans_lt (ha.lt_greatest hf ha.le_max)
  have hholds : f.Holds o v := ⟨ho, ho.le_max hf (by rwa [hnext])⟩
  obtain ⟨m, w, hm, hmiddle⟩ := hw.exists_halfway hg hs.holds.toKeeps hgreatest
  obtain ⟨o', v', ho', hsame⟩ := hw.exists_same hf hg hholds
  have htwo := hs.closest o v hholds
  push_cast at hnext hgap
  -- The number that is written is not below the middle, and so neither is the first result.
  have hx : (s * 2 ^ e + 2 ^ e / 2 : ℚ) ≤ x := by
    by_contra hnot
    have hx := not_le.1 hnot
    rw [abs_of_nonneg (by linarith)] at hnear
    rcases abs_cases (s * 2 ^ e - x : ℚ) with ⟨habs, -⟩ | ⟨habs, -⟩ <;> linarith
  have hlow := hd.le_of_le hm (by rw [hmiddle]; exact hx)
  rw [hmiddle] at hlow
  rw [abs_of_nonpos (show (s * 2 ^ e - d * 2 ^ u : ℚ) ≤ 0 by linarith)] at htwo
  -- Beyond the middle the next number would be closer to the first result.
  have hhigh : (d * 2 ^ u : ℚ) = s * 2 ^ e + 2 ^ e / 2 := by
    rcases abs_cases (o * 2 ^ v - d * 2 ^ u : ℚ) with ⟨habs, -⟩ | ⟨habs, -⟩ <;> linarith
  have hbelow : x ≤ o * 2 ^ v := by
    by_contra hnot
    have := hd.le_of_le ho' (by rw [hsame]; exact (not_le.1 hnot).le)
    linarith
  refine ⟨o, v, ⟨hholds, by linarith, ?_⟩, ?_⟩
  · rw [abs_of_nonneg (by linarith), abs_of_nonpos (by linarith)]
    linarith
  · rw [abs_of_nonneg (by linarith), abs_of_nonneg (by linarith)]
    linarith

theorem exists_tie_below (hd : g.Closest x d u) (hs : f.Closest (d * 2 ^ u) s e) (ha : f.Holds a b)
    (hlt : (a * 2 ^ b : ℚ) < s * 2 ^ e) (hnear : |a * 2 ^ b - x| ≤ |s * 2 ^ e - x|) :
    ∃ o v, f.Tie (d * 2 ^ u) s e o v ∧ |o * 2 ^ v - x| ≤ |a * 2 ^ b - x| := by
  have hzero : 0 < s := by
    refine Nat.pos_of_ne_zero fun hzero => ?_
    rw [hzero, Nat.cast_zero, zero_mul] at hlt
    exact absurd hlt (not_lt.2 (by positivity))
  obtain ⟨o, v, ho, hve, hprevious⟩ := hs.holds.toKeeps.exists_previous hf hzero
  have hpos : (0 : ℚ) < 2 ^ v := by positivity
  have hholds : f.Holds o v := ⟨ho, hve.trans hs.holds.le_max⟩
  obtain ⟨m, w, hm, hmiddle⟩ := hw.exists_halfway hg ho (by
    rw [hprevious]
    exact hs.holds.lt_greatest hf hs.holds.le_max)
  obtain ⟨o', v', ho', hsame⟩ := hw.exists_same hf hg hholds
  have htwo := hs.closest o v hholds
  have hgap : (a * 2 ^ b : ℚ) ≤ o * 2 ^ v := by
    by_contra hnot
    have := ho.gap hf ha.toKeeps (not_le.1 hnot)
    linarith
  push_cast at hprevious
  have hx : x ≤ (o * 2 ^ v + 2 ^ v / 2 : ℚ) := by
    by_contra hnot
    have hx := not_le.1 hnot
    rw [abs_of_nonpos (by linarith)] at hnear
    rcases abs_cases (s * 2 ^ e - x : ℚ) with ⟨habs, -⟩ | ⟨habs, -⟩ <;> linarith
  have hhigh := hd.ge_of_ge hm (by rw [hmiddle]; exact hx)
  rw [hmiddle] at hhigh
  rw [abs_of_nonneg (show (0 : ℚ) ≤ s * 2 ^ e - d * 2 ^ u by linarith)] at htwo
  have hlow : (d * 2 ^ u : ℚ) = o * 2 ^ v + 2 ^ v / 2 := by
    rcases abs_cases (o * 2 ^ v - d * 2 ^ u : ℚ) with ⟨habs, -⟩ | ⟨habs, -⟩ <;> linarith
  have habove : (o * 2 ^ v : ℚ) ≤ x := by
    by_contra hnot
    have := hd.ge_of_ge ho' (by rw [hsame]; exact (not_le.1 hnot).le)
    linarith
  refine ⟨o, v, ⟨hholds, by linarith, ?_⟩, ?_⟩
  · rw [abs_of_nonpos (by linarith), abs_of_nonneg (by linarith)]
    linarith
  · rw [abs_of_nonpos (by linarith), abs_of_nonpos (by linarith)]
    linarith

/-- **If a number other than the result of two roundings is as close, the first one gave a tie**
with one that is at least as close as that. -/
theorem exists_tie (hd : g.Closest x d u) (hs : f.Closest (d * 2 ^ u) s e) (ha : f.Holds a b)
    (hne : (a * 2 ^ b : ℚ) ≠ s * 2 ^ e) (hnear : |a * 2 ^ b - x| ≤ |s * 2 ^ e - x|) :
    ∃ o v, f.Tie (d * 2 ^ u) s e o v ∧ |o * 2 ^ v - x| ≤ |a * 2 ^ b - x| := by
  rcases lt_or_gt_of_ne hne with hlt | hgt
  · exact exists_tie_below hf hg hw hd hs ha hlt hnear
  · exact exists_tie_above hf hg hw hd hs ha hgt hnear

/-- **Two roundings give the closest number** if the first one gave no tie with a closer one. -/
theorem closest_of_two (hd : g.Closest x d u) (hs : f.Closest (d * 2 ^ u) s e)
    (hties : ∀ o v, f.Tie (d * 2 ^ u) s e o v → |s * 2 ^ e - x| ≤ |o * 2 ^ v - x|) :
    f.Closest x s e := by
  refine ⟨hs.holds, fun a b ha => ?_, fun a b ha heq hne => ?_⟩
  · by_contra hnot
    have hlt := not_le.1 hnot
    have hne : (a * 2 ^ b : ℚ) ≠ s * 2 ^ e := by
      intro heq
      rw [heq] at hlt
      exact lt_irrefl _ hlt
    obtain ⟨o, v, htie, hnear⟩ := exists_tie hf hg hw hd hs ha hne hlt.le
    exact absurd (hties o v htie) (not_le.2 (hnear.trans_lt hlt))
  · obtain ⟨o, v, htie, -⟩ := exists_tie hf hg hw hd hs ha hne heq.le
    exact hs.even o v htie.holds htie.dist_eq htie.other

end

end FloatFormat

namespace Literal

open Floating FloatFormat

variable {l : Literal} {t : Text}

/-! ## The number that is written -/

/-- The number that is written, with its sign. -/
def exactValue (l : Literal) : ℚ := withSign l.negative l.exactMagnitude

/-- An exponent is cut only if it has a digit more than the limit. -/
theorem foldl_limit_eq (digits : List ℕ) (n : ℕ)
    (h : digits.foldl (fun n d => n * 10 + d) n < 10 * exponentLimit) :
    digits.foldl (fun n d => if n < exponentLimit then 10 * n + d else n) n =
      digits.foldl (fun n d => n * 10 + d) n := by
  induction digits generalizing n with
  | nil => rfl
  | cons d digits ih =>
    rw [List.foldl_cons] at h
    have hle := le_foldl_digits digits (n * 10 + d)
    rw [List.foldl_cons, List.foldl_cons, if_pos (by omega), Nat.mul_comm 10 n]
    exact ih _ h

/-- **An exponent is read as it is, or it is beyond the limit**, and so is what it is cut to. -/
theorem boundedExponent_eq_or (l : Literal) : l.boundedExponent = l.exponentValue ∨
    65536 ≤ l.boundedExponent ∧ 655360 ≤ l.exponentValue ∨
    l.boundedExponent ≤ -65536 ∧ l.exponentValue ≤ -655360 := by
  unfold boundedExponent exponentValue
  cases l.exponent with
  | none => exact .inl rfl
  | some e =>
    dsimp only
    have hlimit : exponentLimit = 65536 := rfl
    have hcases := foldl_limit_cases (digitValues e.digits) 0
    have heq := foldl_limit_eq (digitValues e.digits) 0
    unfold signedExponent valueOfDigits
    generalize (digitValues e.digits).foldl
      (fun n d => if n < exponentLimit then 10 * n + d else n) 0 = bounded at *
    generalize (digitValues e.digits).foldl (fun n d => n * 10 + d) 0 = value at *
    split <;> omega

theorem rounds_ofDecimal (f : FloatFormat) (n : ℕ) (e : ℤ) :
    Rounds f false (n * 10 ^ e) (ofDecimal f n e) := by
  refine ⟨_, _, Nat.pow_pos (by norm_num), ?_, rfl⟩
  simp only [Nat.pow_eq]
  push_cast
  rw [mul_div_assoc, ← zpow_eq_div_toNat]

theorem eq_infinite_of_exponent {n : ℕ} (hn : n ≠ 0) {k : ℤ} (hk : 536 ≤ k) {v : Floating}
    (h : Rounds .double false (n * 10 ^ k) v) : v = .infinite false := by
  refine h.eq_infinite double_proper ?_
  have hone : (1 : ℚ) ≤ n := by exact_mod_cast Nat.pos_of_ne_zero hn
  calc (2 : ℚ) ^ (double.greatestPower + 1) = 2 ^ (1024 : ℤ) := rfl
    _ ≤ 10 ^ (536 : ℤ) := by exact_mod_cast (by decide +kernel : 2 ^ 1024 ≤ 10 ^ 536)
    _ ≤ 10 ^ k := zpow_le_zpow_right₀ (by norm_num) hk
    _ ≤ n * 10 ^ k := le_mul_of_one_le_left (by positivity) hone

theorem eq_zero_of_le {x : ℚ} (hx : 0 ≤ x) (hle : x ≤ 10 ^ (-536 : ℤ)) {v : Floating}
    (h : Rounds .double false x v) : v = zero .double false := by
  have hzero := holds_zero double_proper
  have hlt : x < ((0 : ℕ) + 1 / 2) * 2 ^ double.minExponent := by
    refine hle.trans_lt ?_
    have hpower : ((2 ^ 1075 : ℕ) : ℚ) < (10 ^ 536 : ℕ) := by
      exact_mod_cast (by decide +kernel : 2 ^ 1075 < 10 ^ 536)
    calc (10 : ℚ) ^ (-536 : ℤ) = ((10 ^ 536 : ℕ) : ℚ)⁻¹ := by
          rw [zpow_neg, Nat.cast_pow]
          rfl
      _ < ((2 ^ 1075 : ℕ) : ℚ)⁻¹ := inv_strictAnti₀ (by positivity) hpower
      _ = ((0 : ℕ) + 1 / 2) * 2 ^ (-1074 : ℤ) := by
          rw [zpow_neg, Nat.cast_pow, pow_succ, mul_inv, mul_comm]
          norm_num
  rw [h.eq_of_between double_proper hzero.toKeeps (by simpa using hx) hlt]
  rfl

theorem digits_mul_le (h : split t = .ok l) (hbase : l.base = .decimal) {k b : ℤ}
    (hk : l.allDigits.length + k ≤ b) : (valueOfDigits 10 l.allDigits * 10 ^ k : ℚ) ≤ 10 ^ b := by
  have hvalue : (valueOfDigits 10 l.allDigits : ℚ) ≤ 10 ^ (l.allDigits.length : ℤ) := by
    rw [zpow_natCast]
    exact_mod_cast (valueOfDigits_lt (decimal_lt_ten h hbase)).le
  calc (valueOfDigits 10 l.allDigits * 10 ^ k : ℚ)
      ≤ 10 ^ (l.allDigits.length : ℤ) * 10 ^ k :=
        mul_le_mul_of_nonneg_right hvalue (by positivity)
    _ = 10 ^ (l.allDigits.length + k) := (zpow_add₀ (by norm_num) _ _).symm
    _ ≤ 10 ^ b := zpow_le_zpow_right₀ (by norm_num) hk

/-- **In base ten the float of 64 bits is the number that is written, rounded once**, if the
exponent is not cut, or if there are not so many digits that it could make up for them. -/
theorem rounds_exactMagnitude (h : split t = .ok l) (hbase : l.base = .decimal)
    (hexponent : l.exponentValue.natAbs < 655360 ∨ l.allDigits.length ≤ 65000) :
    Rounds .double false l.exactMagnitude l.decimalFloat := by
  have hrounds := l.rounds_decimalFloat
  rw [exactMagnitude_of_eq hbase]
  have hexact := rounds_ofDecimal .double (valueOfDigits 10 l.allDigits)
    (l.exponentValue - (digitValues l.fractionDigits).length)
  have hfraction : (digitValues l.fractionDigits).length ≤ l.allDigits.length := by
    rw [allDigits, List.length_append]
    omega
  by_cases hzero : valueOfDigits 10 l.allDigits = 0
  · rw [hzero, Nat.cast_zero, zero_mul] at hrounds ⊢
    exact hrounds
  · rcases l.boundedExponent_eq_or with heq | ⟨hbounded, hgreat⟩ | ⟨hbounded, hsmall⟩
    · rwa [heq] at hrounds
    · -- Cut or not, the number is too great, or it is too small.
      have hfew : l.allDigits.length ≤ 65000 := hexponent.resolve_left (by omega)
      rw [eq_infinite_of_exponent hzero (by omega) hrounds]
      rwa [eq_infinite_of_exponent hzero (by omega) hexact] at hexact
    · have hfew : l.allDigits.length ≤ 65000 := hexponent.resolve_left (by omega)
      rw [eq_zero_of_le (by positivity) (digits_mul_le h hbase (by omega)) hrounds]
      rwa [eq_zero_of_le (by positivity) (digits_mul_le h hbase (by omega)) hexact] at hexact

/-- The rational numbers that a number in base ten is read as: the one with the exponent as it is
cut, and the one that is written, unless there are enough digits to make up for a cut exponent. -/
inductive ReadAs (l : Literal) : ℚ → Prop
  | cut : ReadAs l (withSign l.negative (valueOfDigits 10 l.allDigits *
      10 ^ (l.boundedExponent - (digitValues l.fractionDigits).length)))
  | written (h : l.exponentValue.natAbs < 655360 ∨ l.allDigits.length ≤ 65000) :
    ReadAs l l.exactValue

/-- **What a number is read as is rounded once** to the float of 64 bits. -/
theorem ReadAs.rounds {x : ℚ} (hx : l.ReadAs x) (h : split t = .ok l) (hbase : l.base = .decimal) :
    ∃ y, 0 ≤ y ∧ x = withSign l.negative y ∧ Rounds .double false y l.decimalFloat := by
  cases hx with
  | cut => exact ⟨_, by positivity, rfl, l.rounds_decimalFloat⟩
  | written hexponent =>
    refine ⟨_, ?_, rfl, rounds_exactMagnitude h hbase hexponent⟩
    rw [exactMagnitude_of_eq hbase]
    positivity

/-- A float of 32 bits in base ten is made of the one of 64 bits. -/
theorem value_single_decimal (hbase : l.base = .decimal) (hsingle : l.suffix = .single) :
    l.value = l.valueOf l.decimalFloat := by
  have hfloating : l.isFloating = true := by simp [isFloating, hsingle, NumberSuffix.isFloating]
  have hdecimal : l.suffix ≠ .decimal := by rw [hsingle]; decide
  rw [value_eq hfloating (by simp [hasIntegerSuffix, hsingle]), if_neg hdecimal,
    floatValue_decimal hbase hdecimal]

/-- **A float of 32 bits in base ten is rounded twice.** -/
theorem exists_narrowed {v : Floating} (hbase : l.base = .decimal) (hsingle : l.suffix = .single)
    (h : l.value = .ok (.float .single v)) : ∃ d u s e, l.decimalFloat = .finite false d u ∧
      v = .finite l.negative s e ∧ Rounds .single l.negative (d * 2 ^ u) v := by
  rw [value_single_decimal hbase hsingle] at h
  have hmagnitude := l.decimalFloat_magnitude
  generalize l.decimalFloat = wide at hmagnitude h ⊢
  cases hmagnitude with
  | infinite =>
    obtain ⟨target, herror⟩ := l.valueOf_infinite
    rw [herror] at h
    cases h
  | @finite d u =>
    have hrounds : Rounds .single l.negative (d * 2 ^ u)
        (convert .single (.finite l.negative d u)) := rounds_roundDyadic l.negative d u
    rw [valueOf_single hsingle, signed_finite] at h
    split at h
    · cases h
    · rename_i hfinite
      obtain ⟨-, rfl⟩ := Value.float.inj (Except.ok.inj h)
      obtain ⟨s, e, -, -, -, -, -, -, heq⟩ := hrounds.exists_keeps single_proper
      split at heq
      · rw [heq] at hfinite
        exact absurd rfl hfinite
      · exact ⟨d, u, s, e, rfl, heq, hrounds⟩

end Literal

namespace Floating

open FloatFormat

variable {x : ℚ} {d s : ℕ} {u e : ℤ}

/-- **A number that is rounded twice is the closest one** if and only if no other one is as close to
what it is rounded to first, and closer to itself. -/
theorem closest_narrowed_iff (negative : Bool) (hx : 0 ≤ x) (hd : double.Closest x d u)
    (hs : single.Closest (d * 2 ^ u) s e) :
    Closest .single (withSign negative x) (finite negative s e) ↔
      ∀ w, HasPattern .single w →
        |w.value - (finite negative d u).value| =
          |(finite negative s e).value - (finite negative d u).value| →
        |(finite negative s e).value - withSign negative x| ≤ |w.value - withSign negative x| := by
  constructor
  · intro h w hw _
    exact h.closest w hw
  · intro h
    refine closest_withSign negative single_proper (by decide) hx ?_
    refine closest_of_two single_proper double_proper double_widens_single hd hs fun o v htie => ?_
    have hw := (hasPattern_iff single_proper).2 ⟨negative, o, v, htie.holds, rfl⟩
    have hle := h _ hw (by simp only [value_finite, dist_withSign, htie.dist_eq])
    simpa only [value_finite, dist_withSign] using hle

end Floating

open Floating FloatFormat Literal

/-- **Floats of 32 bits in base ten are rounded twice**: to the closest one of 64 bits, and from
there to the closest one of 32 bits. That is the closest one to the number itself exactly if no
other one is as close to the float of 64 bits, and closer to the number. -/
theorem readNumber_narrowed {t : Text} {l : Literal} {v : Floating} (h : Literal.split t = .ok l)
    (hbase : l.base = .decimal) (hsingle : l.suffix = .single)
    (hread : readNumber t = .ok (.float .single v)) :
    ∃ wide s e, v = finite l.negative s e ∧ Closest .single wide.value v ∧
      ∀ x, l.ReadAs x → Closest .double x wide ∧
        (Closest .single x v ↔ ∀ w, HasPattern .single w →
          |w.value - wide.value| = |v.value - wide.value| → |v.value - x| ≤ |w.value - x|) := by
  rw [readNumber_of_split h] at hread
  obtain ⟨d, u, s, e, hwide, rfl, hnarrowed⟩ := exists_narrowed hbase hsingle hread
  have hs := hnarrowed.closest single_proper (by decide) (by positivity)
  refine ⟨finite l.negative d u, s, e, rfl, ?_, fun x hx => ?_⟩
  · rw [value_finite]
    exact closest_withSign l.negative single_proper (by decide) (by positivity) hs
  · obtain ⟨y, hy, rfl, hrounds⟩ := hx.rounds h hbase
    rw [hwide] at hrounds
    have hd := hrounds.closest double_proper (by decide) hy
    exact ⟨closest_withSign l.negative double_proper (by decide) hy hd,
      closest_narrowed_iff l.negative hy hd hs⟩

/-- A little more than the middle between one and the next float, with a minus sign. -/
theorem readNumber_narrowed_sliver :
    let l : Literal :=
      ⟨true, .decimal, ['1'], some "00000005960464477539063".toList, none, .single⟩
    let v := finite true 8388608 (-23)
    Literal.split "-1.00000005960464477539063f".toList = .ok l ∧
      readNumber "-1.00000005960464477539063f".toList = .ok (.float .single v) ∧
      ∃ wide s e, v = finite true s e ∧ Closest .single wide.value v ∧
        ∀ x, l.ReadAs x → Closest .double x wide ∧
          (Closest .single x v ↔ ∀ w, HasPattern .single w →
            |w.value - wide.value| = |v.value - wide.value| → |v.value - x| ≤ |w.value - x|) := by
  intro l v
  have hsplit : Literal.split "-1.00000005960464477539063f".toList = .ok l := by decide +kernel
  have hread : readNumber "-1.00000005960464477539063f".toList = .ok (.float .single v) := by
    decide +kernel
  exact ⟨hsplit, hread, readNumber_narrowed hsplit rfl rfl hread⟩

/-- One behind a number of zeros, with an exponent that is cut to 70000. -/
def Literal.oneBehind (k : ℕ) : Literal :=
  ⟨false, .decimal, ['0'], some (List.replicate k '0' ++ ['1']), some ⟨none, "700001".toList⟩,
    .single⟩

theorem Literal.split_oneBehind (k : ℕ) :
    split ("0.".toList ++ (List.replicate k '0' ++ '1' :: "e700001f".toList)) =
      .ok (oneBehind k) := by
  have hone : split "0.1e700001f".toList = .ok (oneBehind 0) := by decide +kernel
  obtain ⟨-, hpoint⟩ := split_point (u := ['0']) (r := "1e700001f".toList) (by decide) hone rfl
  have hdigits := hpoint (List.replicate k '0' ++ ['1']) (fun c hc => ?_) (if_neg (by simp))
  · rw [List.append_assoc] at hdigits
    exact hdigits
  · rcases List.mem_append.1 hc with hc | hc
    · rw [(List.mem_replicate.1 hc).2]
      decide
    · rw [List.mem_singleton.1 hc]
      decide

theorem Literal.digitValues_oneBehind (k : ℕ) :
    digitValues (oneBehind k).fractionDigits = List.replicate k 0 ++ [1] := by
  show digitValues (List.replicate k '0' ++ ['1']) = _
  rw [digitValues, List.filterMap_append]
  exact congrArg (· ++ [1]) (digitValues_zeros [] k)

theorem Literal.length_oneBehind (k : ℕ) :
    (digitValues (oneBehind k).fractionDigits).length = k + 1 := by
  rw [digitValues_oneBehind, List.length_append, List.length_replicate]
  rfl

theorem Literal.valueOfDigits_oneBehind (k : ℕ) :
    valueOfDigits 10 (oneBehind k).allDigits = 1 := by
  rw [allDigits, digitValues_oneBehind, ← List.append_assoc]
  show valueOfDigits 10 (List.replicate (k + 1) 0 ++ [1]) = 1
  rw [valueOfDigits_append, valueOfDigits_replicate_zero, Nat.zero_mul]
  rfl

/-- The exponent that is cut no longer makes up for the zeros. -/
theorem Literal.value_oneBehind {k : ℕ} (hk : 71000 ≤ k) :
    (oneBehind k).value = .ok (.float .single (zero .single false)) := by
  have hrounds := (oneBehind k).rounds_decimalFloat
  have hcut : (oneBehind k).boundedExponent = 70000 := rfl
  have hwide : (oneBehind k).decimalFloat = zero .double false := by
    rw [valueOfDigits_oneBehind, Nat.cast_one, one_mul, length_oneBehind, hcut] at hrounds
    refine eq_zero_of_le (by positivity) (zpow_le_zpow_right₀ (by norm_num) ?_) hrounds
    omega
  have hnarrowed : convert .single ((oneBehind k).signed (zero .double false)) =
      zero .single false := convert_zero ..
  rw [value_single_decimal rfl rfl, hwide, valueOf_single rfl, hnarrowed]
  rfl

/-- The exponent that is written does. -/
theorem Literal.exactValue_oneBehind : (oneBehind 700000).exactValue = 1 := by
  have hexponent : (oneBehind 700000).exponentValue = 700001 := rfl
  show exactMagnitude _ = 1
  rw [exactMagnitude_of_eq rfl, valueOfDigits_oneBehind, length_oneBehind, hexponent]
  norm_num

/-- The closest float is not read if the number is a little more than the middle between one and the
next float, and is rounded to the middle first, nor if an exponent is cut. -/
theorem not_forall_closest :
    (¬∀ (t : Text) (l : Literal) (v : Floating), Literal.split t = .ok l → l.base = .decimal →
      l.suffix = .single → readNumber t = .ok (.float .single v) →
        l.exponentValue.natAbs < 655360 → Closest .single l.exactValue v) ∧
    ¬∀ (t : Text) (l : Literal) (v : Floating), Literal.split t = .ok l → l.base = .decimal →
      l.suffix = .single → readNumber t = .ok (.float .single v) →
        655360 ≤ l.exponentValue.natAbs → Closest .single l.exactValue v := by
  have normal {s : ℕ} (hlow : 2 ^ 23 ≤ s) (hhigh : s < 2 ^ 24) :
      HasPattern .single (finite false s (-23)) :=
    (hasPattern_iff single_proper).2
      ⟨_, _, _, ⟨⟨hhigh, .inl hlow, by decide⟩, by decide⟩, rfl⟩
  constructor
  · intro h
    let l : Literal :=
      ⟨false, .decimal, ['1'], some "00000005960464477539063".toList, none, .single⟩
    have hclosest := h "1.00000005960464477539063f".toList l (finite false 8388608 (-23))
      (by decide +kernel) rfl rfl (by decide +kernel) (by decide)
    have hdigits : valueOfDigits 10 l.allDigits = 100000005960464477539063 := by decide +kernel
    have hscale : l.exponentValue - (digitValues l.fractionDigits).length = -23 := by
      decide +kernel
    have hvalue : l.exactValue = 100000005960464477539063 * 10 ^ (-23 : ℤ) := by
      show l.exactMagnitude = _
      rw [exactMagnitude_of_eq rfl, hdigits, hscale]
      norm_num
    have hle := hclosest.closest (finite false 8388609 (-23)) (normal (by decide) (by decide))
    rw [hvalue] at hle
    simp only [value_finite, withSign] at hle
    norm_num at hle
  · intro h
    have hsplit := split_oneBehind 700000
    have hclosest := h _ _ _ hsplit rfl rfl
      ((readNumber_of_split hsplit).trans (value_oneBehind (by norm_num))) (by decide +kernel)
    have hle := hclosest.closest (finite false 8388608 (-23)) (normal (by decide) (by decide))
    rw [exactValue_oneBehind] at hle
    simp only [zero, value_finite, withSign] at hle
    norm_num at hle

end LesTokens
