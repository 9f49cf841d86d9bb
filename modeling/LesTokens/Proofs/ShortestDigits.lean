/-
The shortest decimal that reads back as a float. A number reads back as a float if it is rounded to
it, and those numbers make up an interval around the float (`Rounds.eq_iff_interval`); its ends are
compared with the points of a decimal grid without a fraction (`inInterval_iff`). On each grid the
nearest point of the interval is found if there is one, and a grid of as many digits as the float
has bits has one.

**`ShortDecimal.ofFinite_shortest`**: what is written reads back, no coarser grid has a point that
does, and no other point of its grid that does is nearer.
-/
import LesTokens.Floating.Shortest
import LesTokens.Proofs.FloatRounding

namespace LesTokens

namespace FloatFormat

/-! ## The interval of a float -/

/-- The number of quarters of a unit by which a number may be less than a float and still be rounded
to it. Below a power of two the unit is half as great. -/
def quartersBelow (f : FloatFormat) (s : ℕ) (e : ℤ) : ℕ :=
  if s = 2 ^ (f.precision - 1) ∧ f.minExponent < e then 1 else 2

/-- The numbers between two others, which belong to them or not. -/
def Between (closed : Prop) (low high x : ℚ) : Prop :=
  low ≤ x ∧ x ≤ high ∧ (closed ∨ low ≠ x ∧ x ≠ high)

/-- The numbers that are rounded to `s * 2 ^ e`; the ends are if `s` is even. -/
def Interval (f : FloatFormat) (s : ℕ) (e : ℤ) : ℚ → Prop :=
  Between (s % 2 = 0) ((4 * s - quartersBelow f s e) * 2 ^ (e - 2)) ((4 * s + 2) * 2 ^ (e - 2))

theorem between_iff_of_closed {closed : Prop} {low high x : ℚ} (h : closed) :
    Between closed low high x ↔ low ≤ x ∧ x ≤ high :=
  ⟨fun hx => ⟨hx.1, hx.2.1⟩, fun hx => ⟨hx.1, hx.2, .inl h⟩⟩

theorem between_iff_of_not_closed {closed : Prop} {low high x : ℚ} (h : ¬closed) :
    Between closed low high x ↔ low < x ∧ x < high := by
  constructor
  · rintro ⟨hlow, hhigh, hends⟩
    obtain ⟨hne, hne'⟩ := hends.resolve_left h
    exact ⟨lt_of_le_of_ne hlow hne, lt_of_le_of_ne hhigh hne'⟩
  · rintro ⟨hlow, hhigh⟩
    exact ⟨hlow.le, hhigh.le, .inr ⟨hlow.ne, hhigh.ne⟩⟩

theorem Between.convex {closed : Prop} {low high x y z : ℚ} (hx : Between closed low high x)
    (hz : Between closed low high z) (hxy : x ≤ y) (hyz : y ≤ z) : Between closed low high y := by
  by_cases h : closed
  · rw [between_iff_of_closed h] at hx hz ⊢
    exact ⟨hx.1.trans hxy, hyz.trans hz.2⟩
  · rw [between_iff_of_not_closed h] at hx hz ⊢
    exact ⟨hx.1.trans_le hxy, hyz.trans_lt hz.2⟩

variable {f : FloatFormat} {s : ℕ} {e : ℤ} {x : ℚ}

theorem quarter (e : ℤ) : (2 : ℚ) ^ e = 4 * 2 ^ (e - 2) := by
  rw [zpow_sub₀ two_ne_zero]
  norm_num
  ring

theorem one_le_quartersBelow (f : FloatFormat) (s : ℕ) (e : ℤ) : 1 ≤ quartersBelow f s e := by
  unfold quartersBelow
  split <;> omega

theorem quartersBelow_le (f : FloatFormat) (s : ℕ) (e : ℤ) : quartersBelow f s e ≤ 2 := by
  unfold quartersBelow
  split <;> omega

theorem interval_self : f.Interval s e (s * 2 ^ e) := by
  have hpos : (0 : ℚ) < 2 ^ (e - 2) := by positivity
  have hbelow : (1 : ℚ) ≤ quartersBelow f s e := by exact_mod_cast one_le_quartersBelow f s e
  rw [quarter e]
  refine ⟨by nlinarith, by nlinarith, .inr ⟨fun h => ?_, fun h => ?_⟩⟩ <;> nlinarith

/-- A number in the interval of a float is at most half a unit away. -/
theorem Interval.dist_le (h : f.Interval s e x) : |x - s * 2 ^ e| ≤ 2 ^ e / 2 := by
  have hbelow : (quartersBelow f s e : ℚ) ≤ 2 := by exact_mod_cast quartersBelow_le f s e
  have hpos : (0 : ℚ) < 2 ^ (e - 2) := by positivity
  obtain ⟨hlow, hhigh, -⟩ := h
  rw [quarter e, abs_le]
  constructor <;> nlinarith

theorem Interval.pos (hs : 0 < s) (h : f.Interval s e x) : 0 < x := by
  have hbelow : (quartersBelow f s e : ℚ) ≤ 2 := by exact_mod_cast quartersBelow_le f s e
  have hs : (1 : ℚ) ≤ s := by exact_mod_cast hs
  have hpos : (0 : ℚ) < (4 * s - quartersBelow f s e) * 2 ^ (e - 2) :=
    mul_pos (by linarith) (by positivity)
  exact hpos.trans_le h.1

end FloatFormat

namespace Floating

open FloatFormat

variable {f : FloatFormat} {s t : ℕ} {e u : ℤ} {x : ℚ} {v : Floating}

/-- Two significands are packed into one float: itself, and one with one bit too many. -/
theorem pack_eq_iff (he : e ≤ f.maxExponent) : pack f false t u = .finite false s e ↔
    (t ≠ 2 ^ f.precision ∧ t = s ∧ u = e) ∨
      (t = 2 ^ f.precision ∧ s = 2 ^ (f.precision - 1) ∧ u + 1 = e) := by
  unfold pack
  by_cases hcarry : t = 2 ^ f.precision
  · simp only [hcarry, if_true, ne_eq, not_true_eq_false, false_and, true_and, false_or]
    constructor
    · intro h
      split at h
      · cases h
      · cases h
        exact ⟨rfl, rfl⟩
    · rintro ⟨rfl, rfl⟩
      exact if_neg (by omega)
  · simp only [hcarry, if_false, ne_eq, not_false_eq_true, true_and, false_and, or_false]
    constructor
    · intro h
      split at h
      · cases h
      · cases h
        exact ⟨rfl, rfl⟩
    · rintro ⟨rfl, rfl⟩
      exact if_neg (by omega)

theorem interval_of_nearest (hf : f.Proper) (hunit : f.Unit x e) (h : Nearest s (x / 2 ^ e)) :
    f.Interval s e x := by
  have hpos : (0 : ℚ) < 2 ^ (e - 2) := by positivity
  have habs := abs_le.1 h.1
  have hx : x = x / 2 ^ e * (4 * 2 ^ (e - 2)) := by
    rw [← quarter]
    field_simp
  have hbelow : 4 * s - quartersBelow f s e ≤ 4 * (x / 2 ^ e) ∧
      ((4 * s - quartersBelow f s e : ℚ) = 4 * (x / 2 ^ e) → s % 2 = 0) := by
    unfold quartersBelow
    split
    · -- At a power of two the unit below is half as great, and then the last bit is another one.
      rename_i hpow
      have hle : (s : ℚ) ≤ x / 2 ^ e := by
        have hfull := hunit.full.resolve_right (by omega)
        rw [zpow_precision hf] at hfull
        rw [le_div_iff₀ (by positivity), hpow.1]
        exact_mod_cast hfull
      push_cast
      exact ⟨by linarith, fun heq => by linarith⟩
    · push_cast
      refine ⟨by linarith, fun heq => h.2 ?_⟩
      rw [abs_of_nonneg (by linarith)]
      linarith
  generalize x / 2 ^ e = y at *
  subst hx
  refine ⟨by nlinarith [hbelow.1], by nlinarith, ?_⟩
  by_cases heven : s % 2 = 0
  · exact .inl heven
  · refine .inr ⟨fun heq => heven (hbelow.2 ?_), fun heq => heven (h.2 ?_)⟩
    · have := mul_right_cancel₀ hpos.ne' (heq.trans (by ring : _ = 4 * y * 2 ^ (e - 2)))
      exact this
    · have := mul_right_cancel₀ hpos.ne' ((by ring : 4 * y * 2 ^ (e - 2) = _).trans heq)
      rw [abs_of_nonpos (by linarith)]
      linarith

theorem two_pow_even (hp : 1 < f.precision) : 2 ^ (f.precision - 1) % 2 = 0 := by
  obtain ⟨n, hn⟩ : ∃ n, f.precision - 1 = n + 1 := ⟨f.precision - 2, by omega⟩
  rw [hn, pow_succ, Nat.mul_mod_left]

/-- What is rounded to a power of two in units of the last bit below it. -/
theorem interval_of_carry (hf : f.Proper) (hp : 1 < f.precision) (hu : f.minExponent ≤ u)
    (h : Nearest (2 ^ f.precision) (x / 2 ^ u)) : f.Interval (2 ^ (f.precision - 1)) (u + 1) x := by
  have hpos : (0 : ℚ) < 2 ^ (u - 1) := by positivity
  have habs := abs_le.1 h.1
  have hx : x = x / 2 ^ u * (2 * 2 ^ (u - 1)) := by
    rw [mul_comm 2, ← zpow_add_one₀ two_ne_zero, sub_add_cancel]
    field_simp
  have hbelow : quartersBelow f (2 ^ (f.precision - 1)) (u + 1) = 1 := if_pos ⟨rfl, by omega⟩
  have htwo : ((2 ^ f.precision : ℕ) : ℚ) = (2 ^ (f.precision - 1) : ℕ) * 2 := by
    exact_mod_cast (two_pow_precision hf).symm
  rw [htwo] at habs
  unfold FloatFormat.Interval
  rw [hbelow, show u + 1 - 2 = u - 1 by omega]
  generalize x / 2 ^ u = y at *
  subst hx
  refine ⟨?_, by nlinarith, .inl (two_pow_even hp)⟩
  push_cast at habs ⊢
  nlinarith

theorem Nearest.unique {y : ℚ} (h : Nearest s y) (h' : Nearest t y) : s = t := by
  rcases lt_or_eq_of_le h'.1 with hlt | heq
  · exact h.eq_of_lt hlt
  · rcases lt_or_eq_of_le h.1 with hlt | heq'
    · exact (h'.eq_of_lt hlt).symm
    · have hs := h.2 heq'
      have ht := h'.2 heq
      have habs := abs_le.1 h.1
      have habs' := abs_le.1 h'.1
      have hle : s ≤ t + 1 := by
        have : (s : ℚ) ≤ (t + 1 : ℕ) := by
          push_cast
          linarith
        exact_mod_cast this
      have hle' : t ≤ s + 1 := by
        have : (t : ℚ) ≤ (s + 1 : ℕ) := by
          push_cast
          linarith
        exact_mod_cast this
      omega

theorem Rounds.eq_pack (hf : f.Proper) (h : Rounds f false x v) (hu : f.Unit x u)
    (ht : Nearest t (x / 2 ^ u)) : v = pack f false t u := by
  obtain ⟨t', u', hu', ht', rfl⟩ := h.exists_pack hf
  obtain rfl := hu.unique hu'
  rw [ht'.unique ht]

/-- What is less than a power of two but rounded to it, in units of the last bit below it. -/
theorem nearest_of_interval_carry (hf : f.Proper) (hpow : s = 2 ^ (f.precision - 1))
    (he : f.minExponent < e) (h : f.Interval s e x) (hlt : x < s * 2 ^ e) :
    f.Unit x (e - 1) ∧ Nearest (2 ^ f.precision) (x / 2 ^ (e - 1)) := by
  have hpos : (0 : ℚ) < 2 ^ (e - 2) := by positivity
  have hhalf : (2 : ℚ) ^ (e - 1) = 2 * 2 ^ (e - 2) := by
    rw [mul_comm, ← zpow_add_one₀ two_ne_zero]
    congr 1
    omega
  have hone : (1 : ℚ) ≤ s := by
    rw [hpow]
    exact_mod_cast Nat.two_pow_pos _
  have htwo : ((2 ^ f.precision : ℕ) : ℚ) = s * 2 := by
    rw [hpow]
    exact_mod_cast (two_pow_precision hf).symm
  have hlow : (4 * s - 1 : ℚ) * 2 ^ (e - 2) ≤ x := by
    have hbelow : quartersBelow f s e = 1 := if_pos ⟨hpow, he⟩
    have hlow := h.1
    rwa [hbelow, Nat.cast_one] at hlow
  have hy : x / 2 ^ (e - 1) * (2 * 2 ^ (e - 2)) = x := by
    rw [← hhalf]
    field_simp
  refine ⟨⟨?_, .inl ?_, by omega⟩, ?_⟩
  · rw [zpow_add_precision, hhalf]
    rw [quarter] at hlt
    push_cast at htwo
    rw [htwo]
    linarith
  · have hs : (2 : ℚ) ^ (f.precision - 1) = s := by
      rw [hpow]
      push_cast
      rfl
    rw [zpow_precision hf, hs, hhalf]
    nlinarith
  · rw [quarter] at hlt
    generalize x / 2 ^ (e - 1) = y at hy
    subst hy
    have hy : y ≤ s * 2 := by nlinarith
    have hy' : s * 2 - 1 / 2 ≤ y := by nlinarith
    refine ⟨?_, fun _ => ?_⟩
    · rw [htwo, abs_of_nonneg (by linarith)]
      linarith
    · rw [← two_pow_precision hf, Nat.mul_mod_left]

/-- What is in the interval of a float, but not below a power of two, is not below it by more than
half a unit. -/
theorem Interval.half_below (h : f.Interval s e x)
    (hlow : s * 2 ^ e ≤ x ∨ quartersBelow f s e = 2) :
    (4 * s - 2 : ℚ) * 2 ^ (e - 2) ≤ x ∧ (s % 2 = 0 ∨ (4 * s - 2 : ℚ) * 2 ^ (e - 2) ≠ x) := by
  rcases hlow with hle | htwo
  · have hpos : (0 : ℚ) < 2 ^ (e - 2) := by positivity
    rw [quarter e] at hle
    have hlt : (4 * s - 2 : ℚ) * 2 ^ (e - 2) < x := by nlinarith
    exact ⟨hlt.le, .inr hlt.ne⟩
  · obtain ⟨hge, -, hends⟩ := h
    rw [htwo, Nat.cast_two] at hge hends
    exact ⟨hge, hends.imp_right And.left⟩

theorem unit_of_interval (hf : f.Proper) (hs : f.Keeps s e) (h : f.Interval s e x)
    (hlow : s * 2 ^ e ≤ x ∨ quartersBelow f s e = 2) : f.Unit x e := by
  have hpos : (0 : ℚ) < 2 ^ (e - 2) := by positivity
  have hge := (Interval.half_below h hlow).1
  have hle := h.2.1
  refine ⟨?_, ?_, hs.min_le⟩
  · have hlt : ((s + 1 : ℕ) : ℚ) ≤ 2 ^ f.precision := by exact_mod_cast hs.lt
    push_cast at hlt
    rw [zpow_add_precision, quarter e]
    nlinarith
  · rw [zpow_precision hf, quarter e]
    rcases hs.full with hfull | hmin
    · rcases hlow with hlow | htwo
      · have hfull : (2 : ℚ) ^ (f.precision - 1) ≤ s := by exact_mod_cast hfull
        rw [quarter e] at hlow
        exact .inl (by nlinarith)
      · by_cases hpow : s = 2 ^ (f.precision - 1)
        · refine .inr (Int.le_antisymm (Int.not_lt.1 fun hlt => ?_) hs.min_le)
          rw [quartersBelow, if_pos ⟨hpow, hlt⟩] at htwo
          omega
        · have hfull : ((2 ^ (f.precision - 1) + 1 : ℕ) : ℚ) ≤ s := by
            exact_mod_cast Nat.lt_of_le_of_ne hfull (Ne.symm hpow)
          push_cast at hfull
          exact .inl (by nlinarith)
    · exact .inr hmin

theorem nearest_of_interval (h : f.Interval s e x)
    (hlow : s * 2 ^ e ≤ x ∨ quartersBelow f s e = 2) : Nearest s (x / 2 ^ e) := by
  have hpos : (0 : ℚ) < 2 ^ (e - 2) := by positivity
  obtain ⟨hge, hne⟩ := Interval.half_below h hlow
  obtain ⟨-, hle, hends⟩ := h
  have hx : x / 2 ^ e * (4 * 2 ^ (e - 2)) = x := by
    rw [← quarter e]
    field_simp
  generalize x / 2 ^ e = y at hx
  subst hx
  have hlow : s - 1 / 2 ≤ y := by nlinarith
  have hhigh : y ≤ s + 1 / 2 := by nlinarith
  refine ⟨abs_le.2 ⟨by linarith, by linarith⟩, fun htie => ?_⟩
  rcases (abs_eq (by norm_num)).1 htie with hhalf | hhalf
  · obtain rfl : y = s - 1 / 2 := by linarith
    exact hne.resolve_right fun hne => hne (by ring)
  · obtain rfl : y = s + 1 / 2 := by linarith
    exact hends.resolve_right fun hne => hne.2 (by ring)

/-- **What is rounded to a float is what is in its interval.** -/
theorem Rounds.eq_iff_interval (hf : f.Proper) (hp : 1 < f.precision) (hs : f.Keeps s e)
    (he : e ≤ f.maxExponent) (h : Rounds f false x v) :
    v = .finite false s e ↔ f.Interval s e x := by
  constructor
  · intro hv
    obtain ⟨t, u, hunit, hnear, rfl⟩ := h.exists_pack hf
    obtain ⟨-, rfl, rfl⟩ | ⟨rfl, rfl, rfl⟩ := (pack_eq_iff he).1 hv
    · exact interval_of_nearest hf hunit hnear
    · exact interval_of_carry hf hp hunit.min_le hnear
  · intro hx
    by_cases hcarry : x < s * 2 ^ e ∧ s = 2 ^ (f.precision - 1) ∧ f.minExponent < e
    · obtain ⟨hlt, hpow, hmin⟩ := hcarry
      obtain ⟨hunit, hnear⟩ := nearest_of_interval_carry hf hpow hmin hx hlt
      rw [h.eq_pack hf hunit hnear]
      exact (pack_eq_iff he).2 (.inr ⟨rfl, hpow, by omega⟩)
    · have hlow : s * 2 ^ e ≤ x ∨ quartersBelow f s e = 2 := by
        rw [not_and_or, not_lt] at hcarry
        exact hcarry.imp_right fun hpow => if_neg hpow
      rw [h.eq_pack hf (unit_of_interval hf hs hx hlow) (nearest_of_interval hx hlow)]
      exact (pack_eq_iff he).2 (.inl ⟨hs.lt.ne, rfl, rfl⟩)

end Floating

namespace ShortDecimal

open FloatFormat

variable {f : FloatFormat} {tie : TieBreak} {s : ℕ} {e k : ℤ}

/-! ## The points of a grid -/

/-- A point of a decimal grid that reads back as a float and is no farther from it than any other
point of the grid that does. -/
structure Nearest (f : FloatFormat) (s : ℕ) (e k : ℤ) (d : ℕ) : Prop where
  reads : f.Interval s e (d * 10 ^ k)
  nearest : ∀ d' : ℕ, f.Interval s e (d' * 10 ^ k) →
    |(d * 10 ^ k : ℚ) - s * 2 ^ e| ≤ |(d' * 10 ^ k : ℚ) - s * 2 ^ e|

theorem exists_scale (e k : ℤ) : ∃ c : ℚ, 0 < c ∧
    ((Nat.pow 10 (-k).toNat * Nat.pow 2 (e - 2).toNat : ℕ) : ℚ) = 2 ^ (e - 2) * c ∧
    ((Nat.pow 10 k.toNat * Nat.pow 2 (2 - e).toNat : ℕ) : ℚ) = 10 ^ k * c := by
  refine ⟨10 ^ (-k).toNat * 2 ^ (2 - e).toNat, by positivity, ?_, ?_⟩
  · rw [zpow_eq_div_toNat 2 (e - 2), neg_sub]
    simp only [Nat.pow_eq]
    push_cast
    field_simp
  · rw [zpow_eq_div_toNat 10 k]
    simp only [Nat.pow_eq]
    push_cast
    field_simp

theorem scaled_le_iff {unit step : ℕ} {x y c : ℚ} (hc : 0 < c) (hunit : (unit : ℚ) = x * c)
    (hstep : (step : ℚ) = y * c) (m n : ℕ) : m * unit ≤ n * step ↔ (m * x : ℚ) ≤ n * y := by
  rw [← mul_le_mul_iff_of_pos_right hc, mul_assoc, mul_assoc, ← hunit, ← hstep]
  exact_mod_cast Iff.rfl

section

variable {unit step d : ℕ} {c : ℚ} (hc : 0 < c) (hunit : (unit : ℚ) = 2 ^ (e - 2) * c)
  (hstep : (step : ℚ) = 10 ^ k * c)

include hc hunit hstep

theorem point_le_iff : d * step ≤ 4 * s * unit ↔ (d * 10 ^ k : ℚ) ≤ s * 2 ^ e := by
  rw [scaled_le_iff hc hstep hunit, quarter e, Nat.cast_mul, Nat.cast_ofNat, mul_comm 4, mul_assoc]

theorem le_point_iff : 4 * s * unit ≤ d * step ↔ (s * 2 ^ e : ℚ) ≤ d * 10 ^ k := by
  rw [scaled_le_iff hc hunit hstep, quarter e, Nat.cast_mul, Nat.cast_ofNat, mul_comm 4, mul_assoc]

theorem sub_point_eq (hle : (d * 10 ^ k : ℚ) ≤ s * 2 ^ e) :
    ((4 * s * unit - d * step : ℕ) : ℚ) = |(d * 10 ^ k : ℚ) - s * 2 ^ e| * c := by
  rw [Nat.cast_sub ((point_le_iff hc hunit hstep).2 hle), abs_of_nonpos (sub_nonpos.2 hle),
    quarter e]
  push_cast
  rw [hunit, hstep]
  ring

theorem point_sub_eq (hge : (s * 2 ^ e : ℚ) ≤ d * 10 ^ k) :
    ((d * step - 4 * s * unit : ℕ) : ℚ) = |(d * 10 ^ k : ℚ) - s * 2 ^ e| * c := by
  rw [Nat.cast_sub ((le_point_iff hc hunit hstep).2 hge), abs_of_nonneg (sub_nonneg.2 hge),
    quarter e]
  push_cast
  rw [hunit, hstep]
  ring

end

theorem inInterval_iff {unit step : ℕ} {c : ℚ} (hc : 0 < c) (hunit : (unit : ℚ) = 2 ^ (e - 2) * c)
    (hstep : (step : ℚ) = 10 ^ k * c) (hs : 0 < s) (d : ℕ) :
    inInterval (s % 2 = 0) ((4 * s - quartersBelow f s e) * unit) ((4 * s + 2) * unit) (d * step) =
      true ↔ f.Interval s e (d * 10 ^ k) := by
  have hbelow := quartersBelow_le f s e
  have hcast : ((4 * s - quartersBelow f s e : ℕ) : ℚ) = 4 * s - quartersBelow f s e := by
    rw [Nat.cast_sub (by omega)]
    push_cast
    rfl
  have hcast' : ((4 * s + 2 : ℕ) : ℚ) = 4 * s + 2 := by
    push_cast
    rfl
  have hle := scaled_le_iff hc hunit hstep
  have hge := scaled_le_iff hc hstep hunit
  unfold inInterval FloatFormat.Interval
  by_cases heven : s % 2 = 0
  · rw [between_iff_of_closed heven, decide_eq_true heven, if_pos rfl, Bool.and_eq_true,
      decide_eq_true_eq, decide_eq_true_eq, hle, hge, hcast, hcast']
  · rw [between_iff_of_not_closed heven, decide_eq_false heven, if_neg Bool.false_ne_true,
      Bool.and_eq_true, decide_eq_true_eq, decide_eq_true_eq, ← Nat.not_le, ← Nat.not_le, hge, hle,
      not_le, not_le, hcast, hcast']

/-! ## The nearest point -/

theorem reads_below {d d' : ℕ} (hle : d * 10 ^ k ≤ (s * 2 ^ e : ℚ)) (hd : d' ≤ d)
    (h : f.Interval s e (d' * 10 ^ k)) : f.Interval s e (d * 10 ^ k) ∧
      |(d * 10 ^ k : ℚ) - s * 2 ^ e| ≤ |(d' * 10 ^ k : ℚ) - s * 2 ^ e| := by
  have hd : (d' * 10 ^ k : ℚ) ≤ d * 10 ^ k :=
    mul_le_mul_of_nonneg_right (by exact_mod_cast hd) (by positivity)
  refine ⟨h.convex interval_self hd hle, ?_⟩
  rw [abs_of_nonpos (by linarith), abs_of_nonpos (by linarith)]
  linarith

theorem reads_above {d d' : ℕ} (hle : (s * 2 ^ e : ℚ) ≤ d * 10 ^ k) (hd : d ≤ d')
    (h : f.Interval s e (d' * 10 ^ k)) : f.Interval s e (d * 10 ^ k) ∧
      |(d * 10 ^ k : ℚ) - s * 2 ^ e| ≤ |(d' * 10 ^ k : ℚ) - s * 2 ^ e| := by
  have hd : (d * 10 ^ k : ℚ) ≤ d' * 10 ^ k :=
    mul_le_mul_of_nonneg_right (by exact_mod_cast hd) (by positivity)
  refine ⟨FloatFormat.Between.convex interval_self h hle hd, ?_⟩
  rw [abs_of_nonneg (by linarith), abs_of_nonneg (by linarith)]
  linarith

theorem nearest_below {d : ℕ} (hle : d * 10 ^ k ≤ (s * 2 ^ e : ℚ))
    (hge : (s * 2 ^ e : ℚ) ≤ (d + 1 : ℕ) * 10 ^ k) (hreads : f.Interval s e (d * 10 ^ k))
    (hcloser : f.Interval s e ((d + 1 : ℕ) * 10 ^ k) →
      |(d * 10 ^ k : ℚ) - s * 2 ^ e| ≤ |((d + 1 : ℕ) * 10 ^ k : ℚ) - s * 2 ^ e|) :
    Nearest f s e k d := by
  refine ⟨hreads, fun d' hd' => ?_⟩
  rcases Nat.lt_or_ge d d' with hlt | hd
  · obtain ⟨habove, hdist⟩ := reads_above hge hlt hd'
    exact (hcloser habove).trans hdist
  · exact (reads_below hle hd hd').2

theorem nearest_above {d : ℕ} (hle : d * 10 ^ k ≤ (s * 2 ^ e : ℚ))
    (hge : (s * 2 ^ e : ℚ) ≤ (d + 1 : ℕ) * 10 ^ k)
    (hreads : f.Interval s e ((d + 1 : ℕ) * 10 ^ k))
    (hcloser : f.Interval s e (d * 10 ^ k) →
      |((d + 1 : ℕ) * 10 ^ k : ℚ) - s * 2 ^ e| ≤ |(d * 10 ^ k : ℚ) - s * 2 ^ e|) :
    Nearest f s e k (d + 1) := by
  refine ⟨hreads, fun d' hd' => ?_⟩
  rcases Nat.lt_or_ge d d' with hlt | hd
  · exact (reads_above hge hlt hd').2
  · obtain ⟨hbelow, hdist⟩ := reads_below hle hd hd'
    exact (hcloser hbelow).trans hdist

/-- **On a grid the nearest point that reads back is found**, if there is one. -/
theorem onGrid?_cases (f : FloatFormat) (tie : TieBreak) (hs : 0 < s) (e k : ℤ) :
    (onGrid? f tie s e k = none ∧ ∀ d : ℕ, ¬f.Interval s e (d * 10 ^ k)) ∨
      ∃ d, onGrid? f tie s e k = some d ∧ Nearest f s e k d := by
  obtain ⟨c, hc, hunit, hstep⟩ := exists_scale e k
  unfold onGrid?
  simp only [Nat.pow_eq] at hunit hstep ⊢
  generalize 10 ^ (-k).toNat * 2 ^ (e - 2).toNat = unit at *
  generalize 10 ^ k.toNat * 2 ^ (2 - e).toNat = step at *
  have hreads := inInterval_iff (f := f) hc hunit hstep hs
  unfold quartersBelow at hreads
  have hpos : 0 < step := by
    have : (0 : ℚ) < step := by
      rw [hstep]
      positivity
    exact_mod_cast this
  have hfloor := Nat.div_mul_le_self (4 * s * unit) step
  have hceil := (Nat.lt_div_mul_add hpos (a := 4 * s * unit)).le
  rw [← Nat.add_one_mul] at hceil
  have hbelow := hreads (4 * s * unit / step)
  have habove := hreads (4 * s * unit / step + 1)
  generalize 4 * s * unit / step = d at *
  have hle := (point_le_iff hc hunit hstep).1 hfloor
  have hge := (le_point_iff hc hunit hstep).1 hceil
  generalize (4 * s - if s = 2 ^ (f.precision - 1) ∧ f.minExponent < e then 1 else 2) * unit = low
    at *
  generalize inInterval (s % 2 = 0) low ((4 * s + 2) * unit) (d * step) = below at *
  generalize inInterval (s % 2 = 0) low ((4 * s + 2) * unit) ((d + 1) * step) = above at *
  cases below with
  | false =>
    have hbelow : ¬f.Interval s e (d * 10 ^ k) := fun h => Bool.false_ne_true (hbelow.2 h)
    cases above with
    | false =>
      refine .inl ⟨rfl, fun d' hd' => ?_⟩
      rcases Nat.lt_or_ge d d' with hlt | hd
      · exact Bool.false_ne_true (habove.2 (reads_above hge hlt hd').1)
      · exact hbelow (reads_below hle hd hd').1
    | true => exact .inr ⟨_, rfl, nearest_above hle hge (habove.1 rfl) fun h => absurd h hbelow⟩
  | true =>
    refine .inr ?_
    cases above with
    | false =>
      exact ⟨_, rfl, nearest_below hle hge (hbelow.1 rfl) fun h =>
        absurd (habove.2 h) Bool.false_ne_true⟩
    | true =>
      have hdist := sub_point_eq hc hunit hstep hle
      have hdist' := point_sub_eq hc hunit hstep hge
      have hlower (h : 4 * s * unit - d * step ≤ (d + 1) * step - 4 * s * unit) :
          Nearest f s e k d := by
        refine nearest_below hle hge (hbelow.1 rfl) fun _ => le_of_mul_le_mul_right ?_ hc
        rw [← hdist, ← hdist']
        exact_mod_cast h
      have hupper (h : (d + 1) * step - 4 * s * unit ≤ 4 * s * unit - d * step) :
          Nearest f s e k (d + 1) := by
        refine nearest_above hle hge (habove.1 rfl) fun _ => le_of_mul_le_mul_right ?_ hc
        rw [← hdist, ← hdist']
        exact_mod_cast h
      dsimp only
      split
      · exact ⟨_, rfl, hlower (by omega)⟩
      · split
        · exact ⟨_, rfl, hupper (by omega)⟩
        · cases tie with
          | awayFromZero => exact ⟨_, rfl, hupper (by omega)⟩
          | toEven =>
            refine ⟨_, rfl, ?_⟩
            split
            · exact hlower (by omega)
            · exact hupper (by omega)

/-! ## The coarsest grid -/

theorem digitCount_bounds {n : ℕ} (hn : 0 < n) :
    0 < digitCount n ∧ 10 ^ (digitCount n - 1) ≤ n ∧ n < 10 ^ digitCount n := by
  have hpos : 0 < digitCount n := List.length_pos_iff.2 Nat.toDigits_ne_nil
  have hiff {k : ℕ} (hk : 0 < k) : digitCount n ≤ k ↔ n < 10 ^ k :=
    Nat.length_toDigits_le_iff (by decide) hk
  refine ⟨hpos, Nat.not_lt.1 fun hlt => ?_, (hiff hpos).1 (le_refl _)⟩
  rcases Nat.eq_zero_or_pos (digitCount n - 1) with hzero | hk
  · rw [hzero] at hlt
    omega
  · have := (hiff hk).2 hlt
    omega

/-- **The magnitude of a quotient** is that of the power of ten next above it. -/
theorem magnitude_bounds {num den : ℕ} (hnum : 0 < num) (hden : 0 < den) :
    (10 : ℚ) ^ (magnitude num den - 1) ≤ num / den ∧ (num / den : ℚ) < 10 ^ magnitude num den := by
  have hpos : (0 : ℚ) < den := by exact_mod_cast hden
  unfold magnitude
  split
  · rename_i hle
    obtain ⟨hcount, hlow, hhigh⟩ := digitCount_bounds (Nat.div_pos hle hden)
    generalize digitCount (num / den) = c at *
    rw [show (c : ℤ) - 1 = (c - 1 : ℕ) by omega, zpow_natCast, zpow_natCast]
    constructor
    · rw [le_div_iff₀ hpos]
      exact_mod_cast (Nat.le_div_iff_mul_le hden).1 hlow
    · rw [div_lt_iff₀ hpos]
      exact_mod_cast (Nat.div_lt_iff_lt_mul hden).1 hhigh
  · rename_i hlt
    obtain ⟨hcount, hlow, hhigh⟩ :=
      digitCount_bounds (Nat.div_pos (show num ≤ den - 1 by omega) hnum)
    generalize digitCount ((den - 1) / num) = c at *
    rw [show (1 : ℤ) - c - 1 = -(c : ℤ) by omega, show (1 : ℤ) - c = -((c - 1 : ℕ) : ℤ) by omega,
      zpow_neg, zpow_neg, zpow_natCast, zpow_natCast]
    constructor
    · have hle : den ≤ 10 ^ c * num := by
        have := (Nat.div_lt_iff_lt_mul hnum).1 hhigh
        omega
      rw [le_div_iff₀ hpos, inv_mul_le_iff₀ (by positivity)]
      exact_mod_cast hle
    · have hlt : 10 ^ (c - 1) * num < den := by
        have := (Nat.le_div_iff_mul_le hnum).1 hlow
        omega
      rw [div_lt_iff₀ hpos, lt_inv_mul_iff₀ (by positivity)]
      exact_mod_cast hlt

theorem findSome?_range {α : Type} {g : ℕ → Option α} {m n : ℕ} {a : α} (hn : n < m)
    (hlt : ∀ i < n, g i = none) (h : g n = some a) : (List.range m).findSome? g = some a := by
  obtain ⟨r, rfl⟩ := Nat.exists_eq_add_of_lt hn
  have hnone : (List.range n).findSome? g = none :=
    List.findSome?_eq_none_iff.2 fun i hi => hlt i (List.mem_range.1 hi)
  rw [Nat.add_assoc, List.range_add, List.findSome?_append, hnone, Option.none_or, Nat.add_comm r,
    List.range_add]
  simp [h]

/-- A decimal that reads back as a float, on the coarsest grid with a point that does, and on that
grid the nearest. -/
structure Shortest (f : FloatFormat) (s : ℕ) (e : ℤ) (x : ShortDecimal) : Prop extends
    Nearest f s e x.exponent x.significand where
  coarsest : ∀ k : ℤ, x.exponent < k → ∀ d : ℕ, ¬f.Interval s e (d * 10 ^ k)

/-- A grid whose step is less than the interval of a float has a point in it. -/
theorem exists_interval (hk : (10 : ℚ) ^ k < 3 * 2 ^ (e - 2)) :
    ∃ d : ℕ, f.Interval s e (d * 10 ^ k) := by
  have hpos : (0 : ℚ) < 2 ^ (e - 2) := by positivity
  have hstep : (0 : ℚ) < 10 ^ k := by positivity
  have hbelow : (1 : ℚ) ≤ quartersBelow f s e := by exact_mod_cast one_le_quartersBelow f s e
  have hinside {x : ℚ} (hlow : (4 * s - quartersBelow f s e) * 2 ^ (e - 2) < x)
      (hhigh : x < (4 * s + 2) * 2 ^ (e - 2)) : f.Interval s e x :=
    ⟨hlow.le, hhigh.le, .inr ⟨hlow.ne, hhigh.ne⟩⟩
  have hfloor := Nat.floor_le (show 0 ≤ (s * 2 ^ e : ℚ) / 10 ^ k by positivity)
  have hceil := Nat.lt_floor_add_one ((s * 2 ^ e : ℚ) / 10 ^ k)
  rw [le_div_iff₀ hstep] at hfloor
  rw [div_lt_iff₀ hstep] at hceil
  generalize ⌊(s * 2 ^ e : ℚ) / 10 ^ k⌋₊ = d at *
  rw [quarter] at hfloor hceil
  by_cases hlow : (4 * s - quartersBelow f s e) * 2 ^ (e - 2) < (d * 10 ^ k : ℚ)
  · exact ⟨d, hinside hlow (by nlinarith)⟩
  · refine ⟨d + 1, hinside ?_ ?_⟩
    · push_cast
      nlinarith
    · push_cast
      nlinarith

theorem four_mul_two_pow_le {p : ℕ} (hp : 1 < p) : 4 * 2 ^ p ≤ 3 * 10 ^ (p - 1) := by
  induction p, hp using Nat.le_induction with
  | base => norm_num
  | succ p hp ih =>
    obtain ⟨n, rfl⟩ : ∃ n, p = n + 1 := ⟨p - 1, by omega⟩
    rw [Nat.add_sub_cancel] at ih ⊢
    rw [pow_succ 2, pow_succ 10]
    omega

/-- As many digits as a float has bits are enough. -/
theorem exists_interval_of_digits {top : ℤ} (hp : 1 < f.precision) (hs : f.Keeps s e)
    (htop : (10 : ℚ) ^ (top - 1) ≤ s * 2 ^ e) :
    ∃ d : ℕ, f.Interval s e (d * 10 ^ (top - f.precision)) := by
  refine exists_interval ?_
  have hpos : (0 : ℚ) < 2 ^ (e - 2) := by positivity
  have hlt : (s : ℚ) < 2 ^ f.precision := by exact_mod_cast hs.lt
  have hpow : (4 * 2 ^ f.precision : ℚ) ≤ 3 * 10 ^ (f.precision - 1) := by
    exact_mod_cast four_mul_two_pow_le hp
  have hsplit : (10 : ℚ) ^ (top - 1) = 10 ^ (top - f.precision) * 10 ^ (f.precision - 1) := by
    rw [← zpow_natCast, ← zpow_add₀ (by norm_num)]
    congr 1
    omega
  have hten : (0 : ℚ) < 10 ^ (f.precision - 1) := by positivity
  rw [hsplit, quarter] at htop
  refine lt_of_mul_lt_mul_right ?_ hten.le
  nlinarith

theorem not_interval_above {top : ℤ} (hs : 0 < s) (htop : (s * 2 ^ e : ℚ) < 10 ^ top) (hk : top < k)
    (d : ℕ) : ¬f.Interval s e (d * 10 ^ k) := by
  intro hd
  have hpos := Interval.pos hs hd
  have hdist := (abs_le.1 hd.dist_le).2
  have hone : (1 : ℚ) ≤ d := by
    have : (0 : ℚ) < d := pos_of_mul_pos_left hpos (by positivity)
    exact_mod_cast this
  have hten : (10 : ℚ) * 10 ^ top ≤ 10 ^ k := by
    rw [mul_comm, ← zpow_add_one₀ (by norm_num)]
    exact zpow_le_zpow_right₀ (by norm_num) hk
  have hs : (1 : ℚ) ≤ s := by exact_mod_cast hs
  have hpower : (10 : ℚ) ^ k ≤ d * 10 ^ k := le_mul_of_one_le_left (by positivity) hone
  have hunit : (2 : ℚ) ^ e ≤ s * 2 ^ e := le_mul_of_one_le_left (by positivity) hs
  linarith

/-- **The shortest decimal that reads back as a float is found.** -/
theorem ofFinite_shortest (tie : TieBreak) (hp : 1 < f.precision) (hs : f.Keeps s e)
    (hpos : 0 < s) : Shortest f s e (ofFinite f tie s e) := by
  have hnum : 0 < s * Nat.pow 2 e.toNat := Nat.mul_pos hpos (Nat.two_pow_pos _)
  have hden : 0 < Nat.pow 2 (-e).toNat := Nat.two_pow_pos _
  obtain ⟨hlow, hhigh⟩ := magnitude_bounds hnum hden
  have hvalue : ((s * Nat.pow 2 e.toNat : ℕ) / (Nat.pow 2 (-e).toNat : ℕ) : ℚ) = s * 2 ^ e := by
    rw [zpow_eq_div_toNat 2 e]
    simp only [Nat.pow_eq]
    push_cast
    ring
  rw [hvalue] at hlow hhigh
  unfold ofFinite
  rw [if_neg hpos.ne']
  dsimp only
  generalize magnitude (s * Nat.pow 2 e.toNat) (Nat.pow 2 (-e).toNat) = top at *
  -- The first grid with a point that reads back.
  have hexists : ∃ n : ℕ, ∃ d : ℕ, f.Interval s e (d * 10 ^ (top - n)) :=
    ⟨f.precision, exists_interval_of_digits hp hs hlow⟩
  obtain ⟨n, hn, hfirst⟩ : ∃ n : ℕ, (∃ d : ℕ, f.Interval s e (d * 10 ^ (top - n))) ∧
      ∀ i < n, ¬∃ d : ℕ, f.Interval s e (d * 10 ^ (top - i)) := by
    classical
    exact ⟨Nat.find hexists, Nat.find_spec hexists, fun i hi => Nat.find_min hexists hi⟩
  have hle : n ≤ f.precision := Nat.not_lt.1 fun hlt =>
    hfirst _ hlt (exists_interval_of_digits hp hs hlow)
  obtain ⟨d, hd, hnearest⟩ : ∃ d, onGrid? f tie s e (top - n) = some d ∧
      Nearest f s e (top - n) d := by
    obtain ⟨-, hnone⟩ | hsome := onGrid?_cases f tie hpos e (top - n)
    · obtain ⟨d, hd⟩ := hn
      exact absurd hd (hnone d)
    · exact hsome
  rw [findSome?_range (Nat.lt_succ_of_le hle) (fun i hi => ?_) (by rw [hd]; rfl)]
  · refine ⟨hnearest, fun k hk d' hd' => ?_⟩
    change top - n < k at hk
    rcases Int.lt_or_le top k with hlt | hle
    · exact not_interval_above hpos hhigh hlt d' hd'
    · refine hfirst (top - k).toNat (by omega) ⟨d', ?_⟩
      rwa [show top - ((top - k).toNat : ℤ) = k by omega]
  · obtain ⟨hnone, -⟩ | ⟨d', -, hd'⟩ := onGrid?_cases f tie hpos e (top - i)
    · rw [hnone]
      rfl
    · exact absurd ⟨d', hd'.reads⟩ (hfirst i hi)

end ShortDecimal

end LesTokens
