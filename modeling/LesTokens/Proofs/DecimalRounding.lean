/-
Written numbers and the decimals that are read from them. The digits of a written number are one
whole number over a power of ten (`Decimal.written_eq`), and cutting digits off rounds that quotient
to a whole number, half a unit away from zero (`Decimal.roundedValue_eq`). The search for the most
places that fit is a search for the greatest scale at which the rounded magnitude has no more than
96 bits; with fewer places a rounded magnitude is never greater (`Decimal.roundAway_mono`), so a
number that does not fit as a whole number does not fit at all.

**`Decimal.ofDigits?_rounded`**: a written number has no decimal exactly if it rounds to `2 ^ 96` or
more, and else it has the decimal that it rounds to, once, at the greatest scale that fits.
-/
import LesTokens.Proofs.DecimalValues

namespace LesTokens

/-! ## Numbers by their digits -/

theorem valueOfDigits_append (radix : Nat) (ds es : List Nat) :
    valueOfDigits radix (ds ++ es) =
      valueOfDigits radix ds * radix ^ es.length + valueOfDigits radix es := by
  induction es using List.reverseRecOn with
  | nil => simp [valueOfDigits]
  | append_singleton es e ih =>
    rw [← List.append_assoc, List.length_append]
    simp only [valueOfDigits, List.foldl_append, List.foldl_cons, List.foldl_nil] at ih ⊢
    rw [ih, List.length_singleton, pow_succ]
    ring

theorem valueOfDigits_cons (radix d : Nat) (ds : List Nat) :
    valueOfDigits radix (d :: ds) = d * radix ^ ds.length + valueOfDigits radix ds := by
  rw [← List.singleton_append, valueOfDigits_append]
  simp [valueOfDigits]

theorem valueOfDigits_lt {radix : Nat} {ds : List Nat} (h : ∀ d ∈ ds, d < radix) :
    valueOfDigits radix ds < radix ^ ds.length := by
  induction ds with
  | nil => simp [valueOfDigits]
  | cons d ds ih =>
    have hd : d + 1 ≤ radix := h d List.mem_cons_self
    have hrest := ih fun e he => h e (List.mem_cons_of_mem d he)
    have hmul := Nat.mul_le_mul_right (radix ^ ds.length) hd
    rw [valueOfDigits_cons, List.length_cons, pow_succ, Nat.mul_comm _ radix]
    rw [Nat.succ_mul] at hmul
    omega

theorem valueOfDigits_replicate_zero (radix n : Nat) :
    valueOfDigits radix (List.replicate n 0) = 0 := by
  induction n with
  | zero => rfl
  | succ n ih => rw [List.replicate_succ, valueOfDigits_cons, ih, Nat.zero_mul]

namespace Decimal

theorem lt_ten_of_mem_decimalDigits {t : Text} : ∀ d ∈ decimalDigits t, d < 10 := by
  intro d hd
  obtain ⟨c, hc, rfl⟩ := List.mem_map.1 hd
  have hdigit : '0' ≤ c ∧ c ≤ '9' := by
    simpa [Char.isDigit, Char.le_def] using (List.mem_filter.1 hc).2
  have hnine : c.toNat ≤ '9'.toNat := hdigit.2
  have heq : '9'.toNat = '0'.toNat + 9 := rfl
  omega

/-! ## Rounding to a whole number -/

/-- The whole number nearest to a magnitude, of two the greater. -/
def roundAway (x : ℚ) : ℕ := ⌊x + 1 / 2⌋₊

theorem roundAway_mono {x y : ℚ} (h : x ≤ y) : roundAway x ≤ roundAway y :=
  Nat.floor_mono (by linarith)

theorem roundAway_natCast (n : ℕ) : roundAway n = n := by
  rw [roundAway, Nat.floor_eq_iff (by positivity)]
  constructor <;> linarith

theorem lt_roundAway_iff {x : ℚ} (hx : 0 ≤ x) (n : ℕ) : n < roundAway x ↔ (n : ℚ) + 1 / 2 ≤ x := by
  rw [roundAway, ← Nat.succ_le_iff, Nat.le_floor_iff (by positivity), Nat.succ_eq_add_one]
  push_cast
  constructor <;> intro h <;> linarith

theorem roundAway_div {q r den : ℕ} (hr : r < den) :
    roundAway ((q * den + r : ℕ) / (den : ℚ)) = q + if den ≤ 2 * r then 1 else 0 := by
  have hden : (0 : ℚ) < den := by exact_mod_cast Nat.zero_lt_of_lt hr
  have hr' : (r : ℚ) < den := by exact_mod_cast hr
  have hx : ((q * den + r : ℕ) : ℚ) / den = q + r / den := by
    push_cast
    rw [add_div, mul_div_cancel_right₀ _ hden.ne']
  have hpos : (0 : ℚ) ≤ r / den := by positivity
  have hlt : (r : ℚ) / den < 1 := (div_lt_one hden).2 hr'
  rw [hx, roundAway, Nat.floor_eq_iff (by positivity)]
  split
  · rename_i h
    have hhalf : (1 : ℚ) / 2 ≤ r / den := by
      rw [div_le_div_iff₀ two_pos hden]
      exact_mod_cast (by omega : 1 * den ≤ r * 2)
    push_cast
    constructor <;> linarith
  · rename_i h
    have hhalf : (r : ℚ) / den < 1 / 2 := by
      rw [div_lt_div_iff₀ hden two_pos]
      exact_mod_cast (by omega : r * 2 < 1 * den)
    push_cast
    constructor <;> linarith

/-- The first digit that is cut tells whether the rest is half a unit. -/
theorem five_le_iff {d c : ℕ} {ds : List ℕ} (hds : ∀ e ∈ ds, e < 10) (hc : ds.length = c) :
    5 ≤ d ↔ 10 ^ (c + 1) ≤ 2 * valueOfDigits 10 (d :: ds) := by
  have hrest := valueOfDigits_lt hds
  rw [valueOfDigits_cons, hc] at *
  rw [pow_succ]
  constructor
  · intro h
    have := Nat.mul_le_mul_right (10 ^ c) h
    omega
  · intro h
    by_contra hd
    have := Nat.mul_le_mul_right (10 ^ c) (Nat.le_of_lt_succ (Nat.lt_of_not_le hd))
    omega

/-- **Cutting digits off rounds the number that they stand for.** -/
theorem roundedValue_eq {digits : List ℕ} (h : ∀ d ∈ digits, d < 10) (cut : ℕ) :
    roundedValue digits cut = roundAway (valueOfDigits 10 digits / 10 ^ cut) := by
  by_cases hcut : cut ≤ digits.length
  · obtain ⟨keep, hkeep⟩ : ∃ keep, digits.length = keep + cut :=
      ⟨digits.length - cut, by omega⟩
    have hlength : (digits.drop keep).length = cut := by rw [List.length_drop]; omega
    have hdrop : ∀ d ∈ digits.drop keep, d < 10 := fun d hd => h d (List.mem_of_mem_drop hd)
    have hlt := valueOfDigits_lt hdrop
    rw [hlength] at hlt
    have hvalue : valueOfDigits 10 digits = valueOfDigits 10 (digits.take keep) * 10 ^ cut +
        valueOfDigits 10 (digits.drop keep) := by
      rw [← hlength, ← valueOfDigits_append, List.take_append_drop]
    have hround := roundAway_div (q := valueOfDigits 10 (digits.take keep)) hlt
    rw [← hvalue] at hround
    push_cast at hround
    rw [hround, roundedValue, if_pos hcut, show digits.length - cut = keep by omega]
    dsimp only
    congr 1
    rcases hd : digits.drop keep with - | ⟨d, ds⟩
    · have hnone : digits[keep]? = none := by
        rw [← List.head?_drop, hd, List.head?_nil]
      have hzero : cut = 0 := by rw [← hlength, hd, List.length_nil]
      rw [hnone, hzero]
      rfl
    · have hsome : digits[keep]? = some d := by rw [← List.head?_drop, hd, List.head?_cons]
      have hlen : cut = ds.length + 1 := by rw [← hlength, hd, List.length_cons]
      have hiff := five_le_iff (d := d) (fun e he => hdrop e (by rw [hd]; exact .tail d he)) rfl
      rw [hsome, hlen]
      exact if_congr hiff rfl rfl
  · have hlt := valueOfDigits_lt h
    have hpow : 10 * 10 ^ digits.length ≤ 10 ^ cut := by
      rw [← pow_succ']
      exact Nat.pow_le_pow_right (by decide) (by omega)
    have hsmall : valueOfDigits 10 digits < 10 ^ cut := by omega
    have hround := roundAway_div (q := 0) hsmall
    rw [Nat.zero_mul, Nat.zero_add, if_neg (by omega)] at hround
    push_cast at hround
    rw [hround, roundedValue, if_neg hcut]

/-! ## The most places that fit -/

/-- The scales at which a magnitude rounds to no more than 96 bits. -/
def fittingScales (x : ℚ) : Set ℕ := {s | s ≤ 28 ∧ roundAway (x * 10 ^ s) ≤ 2 ^ 96 - 1}

theorem roundAway_scale_mono {x : ℚ} (hx : 0 ≤ x) {s s' : ℕ} (h : s ≤ s') :
    roundAway (x * 10 ^ s) ≤ roundAway (x * 10 ^ s') := by
  have hpow : (10 : ℚ) ^ s ≤ 10 ^ s' := pow_le_pow_right₀ (by norm_num) h
  exact roundAway_mono (mul_le_mul_of_nonneg_left hpow hx)

/-- The search ends at the first scale, from the greatest down, at which the magnitude fits. -/
theorem fit?_cases (digits : List ℕ) (scale : ℕ) (negative : Bool) {places : ℕ}
    (hp : places ≤ maxScale) :
    (fit? digits scale negative places = none ∧
      ∀ s ≤ places, maxMantissa < roundedValue digits (scale - s)) ∨
    ∃ s ≤ places, fit? digits scale negative places =
        ofParts? (roundedValue digits (scale - s)) s negative ∧
      roundedValue digits (scale - s) ≤ maxMantissa ∧
      ∀ s', s < s' → s' ≤ places → maxMantissa < roundedValue digits (scale - s') := by
  induction places with
  | zero =>
    by_cases hfits : roundedValue digits (scale - 0) ≤ maxMantissa
    · exact .inr ⟨0, Nat.le_refl 0, rfl, hfits, by omega⟩
    · refine .inl ⟨if_neg fun h => hfits h.1, fun s hs => ?_⟩
      obtain rfl := Nat.le_zero.1 hs
      exact Nat.lt_of_not_le hfits
  | succ places ih =>
    by_cases hfits : roundedValue digits (scale - (places + 1)) ≤ maxMantissa
    · have hparts : keeping? digits scale negative (places + 1) = some
          (normalized (roundedValue digits (scale - (places + 1))) (places + 1) negative) :=
        if_pos ⟨hfits, hp⟩
      refine .inr ⟨places + 1, Nat.le_refl _, ?_, hfits, by omega⟩
      rw [fit?_of_keeping? hparts, ← hparts, keeping?]
    · have hnone : keeping? digits scale negative (places + 1) = none := if_neg fun h => hfits h.1
      have hstep : fit? digits scale negative (places + 1) = fit? digits scale negative places := by
        rw [fit?, hnone]
        rfl
      rcases ih (by omega) with ⟨hfail, hall⟩ | ⟨s, hs, hfound, hfit, hall⟩
      · refine .inl ⟨by rw [hstep, hfail], fun s hs => ?_⟩
        rcases Nat.lt_or_eq_of_le hs with hlt | rfl
        · exact hall s (by omega)
        · exact Nat.lt_of_not_le hfits
      · refine .inr ⟨s, by omega, by rw [hstep, hfound], hfit, fun s' hlt hs' => ?_⟩
        rcases Nat.lt_or_eq_of_le hs' with hlt' | rfl
        · exact hall s' hlt (by omega)
        · exact Nat.lt_of_not_le hfits

/-- What is read from digits that stand for a magnitude: nothing if it is too great, else what it
rounds to at the greatest scale that fits. -/
structure RoundsTo (x : ℚ) (negative : Bool) (result : Option Decimal) : Prop where
  none_iff : result = none ↔ 2 ^ 96 - 1 / 2 ≤ x
  eq_ofParts : ∀ d, result = some d → ∃ s, IsGreatest (fittingScales x) s ∧
    ofParts? (roundAway (x * 10 ^ s)) s negative = some d

theorem exists_isGreatest {x : ℚ} {s : ℕ} (h : s ∈ fittingScales x) :
    ∃ s', IsGreatest (fittingScales x) s' := by
  have hbound : BddAbove (fittingScales x) := ⟨28, fun s hs => hs.1⟩
  exact ⟨_, Nat.sSup_mem ⟨s, h⟩ hbound, fun s hs => le_csSup hbound hs⟩

theorem ofParts?_eq_of_exact {m s s' : ℕ} {negative : Bool} (hs : s ≤ s')
    (hm : m * 10 ^ (s' - s) ≤ maxMantissa) (hs' : s' ≤ maxScale) :
    ofParts? (m * 10 ^ (s' - s)) s' negative = ofParts? m s negative := by
  have hle : m ≤ maxMantissa := Nat.le_trans (Nat.le_mul_of_pos_right m (by positivity)) hm
  rw [ofParts?, if_pos ⟨hm, hs'⟩, ofParts?, if_pos ⟨hle, Nat.le_trans hs hs'⟩]
  refine congrArg some ((normalized_canonical hm hs' negative).ext_toRat
    (normalized_canonical hle (Nat.le_trans hs hs') negative) ?_)
  obtain ⟨k, rfl⟩ := Nat.exists_eq_add_of_le hs
  rw [toRat_normalized, toRat_normalized, Nat.add_sub_cancel_left, signed_mul, pow_add]
  push_cast
  rw [mul_div_mul_right _ _ (by positivity)]

/-- Digits with `s` of their places kept are the number that they stand for, rounded there. -/
theorem roundedValue_eq_scaled {digits : List ℕ} (h : ∀ d ∈ digits, d < 10) {s scale : ℕ}
    (hs : s ≤ scale) : roundedValue digits (scale - s) =
      roundAway (valueOfDigits 10 digits / 10 ^ scale * 10 ^ s) := by
  obtain ⟨k, rfl⟩ := Nat.exists_eq_add_of_le hs
  rw [roundedValue_eq h, Nat.add_sub_cancel_left, pow_add, div_mul_eq_mul_div,
    mul_comm (10 ^ s : ℚ), mul_div_mul_right _ _ (by positivity)]

theorem scaled_eq_natCast (m : ℕ) {s s' : ℕ} (h : s ≤ s') :
    (m / 10 ^ s * 10 ^ s' : ℚ) = (m * 10 ^ (s' - s) : ℕ) := by
  obtain ⟨k, rfl⟩ := Nat.exists_eq_add_of_le h
  rw [Nat.add_sub_cancel_left, pow_add]
  push_cast
  field_simp

/-- Digits round to too many bits at every scale if they do as a whole number. -/
theorem too_great_iff {digits : List ℕ} (h : ∀ d ∈ digits, d < 10) (scale : ℕ) :
    2 ^ 96 - 1 / 2 ≤ (valueOfDigits 10 digits / 10 ^ scale : ℚ) ↔
      maxMantissa < roundedValue digits (scale - 0) := by
  have hx : (0 : ℚ) ≤ valueOfDigits 10 digits / 10 ^ scale := by positivity
  have hmax : maxMantissa = 2 ^ 96 - 1 := rfl
  rw [roundedValue_eq_scaled h (Nat.zero_le _), pow_zero, mul_one, lt_roundAway_iff hx, hmax]
  norm_num

/-- A greater scale than the one that is found fits only where no digit is cut. -/
theorem eq_scale_of_greater {digits : List ℕ} (h : ∀ d ∈ digits, d < 10) {scale s s' : ℕ}
    (hle : s ≤ scale) (hlt : s < s')
    (hfits : s' ∈ fittingScales (valueOfDigits 10 digits / 10 ^ scale))
    (hall : ∀ t, s < t → t ≤ min scale maxScale → maxMantissa < roundedValue digits (scale - t)) :
    s = scale := by
  have hmax : maxMantissa = 2 ^ 96 - 1 := rfl
  have hscale : maxScale = 28 := rfl
  obtain ⟨hle', hbound⟩ := hfits
  by_contra hne
  have hnext := hall (s + 1) (by omega) (by omega)
  rw [roundedValue_eq_scaled h (by omega)] at hnext
  have hx : (0 : ℚ) ≤ valueOfDigits 10 digits / 10 ^ scale := by positivity
  have hmono := roundAway_scale_mono hx (show s + 1 ≤ s' from hlt)
  omega

/-- **Digits are read as the number that they stand for**, rounded once. -/
theorem fit?_roundsTo {digits : List ℕ} (h : ∀ d ∈ digits, d < 10) (scale : ℕ) (negative : Bool) :
    RoundsTo (valueOfDigits 10 digits / 10 ^ scale) negative
      (fit? digits scale negative (min scale maxScale)) := by
  have hscale : maxScale = 28 := rfl
  rcases fit?_cases digits scale negative (Nat.min_le_right scale maxScale) with
    ⟨hfail, hall⟩ | ⟨s, hs, hfound, hfit, hall⟩
  · refine ⟨iff_of_true hfail ((too_great_iff h scale).2 (hall 0 (Nat.zero_le _))), fun d hd => ?_⟩
    rw [hfail] at hd
    cases hd
  · have hle : s ≤ scale := by omega
    have hfit' := hfit
    rw [roundedValue_eq_scaled h hle] at hfit'
    have hmem : s ∈ fittingScales (valueOfDigits 10 digits / 10 ^ scale) := ⟨by omega, hfit'⟩
    constructor
    case none_iff =>
      rw [hfound, too_great_iff h, roundedValue_eq_scaled h (Nat.zero_le _), ofParts?,
        if_pos ⟨hfit, by omega⟩]
      have hx : (0 : ℚ) ≤ valueOfDigits 10 digits / 10 ^ scale := by positivity
      have hmono := roundAway_scale_mono hx (Nat.zero_le s)
      exact iff_of_false (Option.some_ne_none _) (by omega)
    case eq_ofParts =>
      intro d hd
      obtain ⟨s', hs'⟩ := exists_isGreatest hmem
      refine ⟨s', hs', ?_⟩
      rw [hfound] at hd
      have hss' : s ≤ s' := hs'.2 hmem
      rcases Nat.eq_or_lt_of_le hss' with rfl | hlt
      · rw [← roundedValue_eq_scaled h hle, hd]
      · -- With no digit cut, a greater scale makes the same decimal.
        obtain rfl := eq_scale_of_greater h hle hlt hs'.1 hall
        have hbound := hs'.1.2
        rw [scaled_eq_natCast _ hss', roundAway_natCast] at hbound ⊢
        rw [Nat.sub_self, roundedValue_zero] at hd
        rw [ofParts?_eq_of_exact hss' hbound hs'.1.1, hd]

/-! ## Written numbers -/

/-- The number that is written with a point and an exponent. -/
def written (integer fraction : Text) (exponent : ℤ) : ℚ :=
  (valueOfDigits 10 (decimalDigits integer) +
    valueOfDigits 10 (decimalDigits fraction) / 10 ^ (decimalDigits fraction).length) * 10 ^ exponent

theorem written_eq (integer fraction : Text) (exponent : ℤ) : written integer fraction exponent =
    valueOfDigits 10 ((decimalDigits integer ++ decimalDigits fraction).dropWhile (· = 0)) /
      10 ^ (((decimalDigits fraction).length : ℤ) - exponent) := by
  rw [valueOfDigits_dropWhile, valueOfDigits_append, written, zpow_sub₀ (by norm_num), zpow_natCast]
  push_cast
  field_simp

theorem pow_le_valueOfDigits {d : ℕ} {ds : List ℕ} (hd : d ≠ 0) :
    10 ^ ds.length ≤ valueOfDigits 10 (d :: ds) := by
  rw [valueOfDigits_cons]
  have := Nat.mul_le_mul_right (10 ^ ds.length) (Nat.pos_of_ne_zero hd)
  omega

theorem roundsTo_zero (negative : Bool) : RoundsTo 0 negative (some zero) := by
  have hround : roundAway (0 * 10 ^ 28) = 0 := by
    rw [zero_mul, ← Nat.cast_zero, roundAway_natCast]
  refine ⟨iff_of_false (Option.some_ne_none _) (by norm_num), fun d hd => ?_⟩
  refine ⟨28, ⟨⟨le_refl _, hround.trans_le (Nat.zero_le _)⟩, fun s hs => hs.1⟩, ?_⟩
  rw [hround, ← hd]
  cases negative <;> rfl

/-- More than forty digits, the first of them no zero, are more than 96 bits. -/
theorem roundsTo_wide {d n : ℕ} {ds : List ℕ} (hd : d ≠ 0)
    (hwide : maxWidth < (d :: ds).length + (n + 1)) (negative : Bool) :
    RoundsTo (valueOfDigits 10 (d :: ds ++ List.replicate (n + 1) 0) : ℕ) negative none := by
  have hwidth : maxWidth = 40 := rfl
  have hlength : 40 ≤ (ds ++ List.replicate (n + 1) 0).length := by
    rw [List.length_append, List.length_replicate]
    rw [List.length_cons] at hwide
    omega
  have hforty : 10 ^ 40 ≤ valueOfDigits 10 (d :: ds ++ List.replicate (n + 1) 0) :=
    Nat.le_trans (Nat.pow_le_pow_right (by decide) hlength) (pow_le_valueOfDigits hd)
  have hlarge : ((10 ^ 40 : ℕ) : ℚ) ≤
      (valueOfDigits 10 (d :: ds ++ List.replicate (n + 1) 0) : ℕ) := Nat.cast_le.2 hforty
  refine ⟨iff_of_true rfl (le_trans ?_ hlarge), nofun⟩
  norm_num

theorem lt_ten_of_mem_significant (integer fraction : Text) :
    ∀ d ∈ (decimalDigits integer ++ decimalDigits fraction).dropWhile (· = 0), d < 10 := by
  intro d hd
  rcases List.mem_append.1 (List.dropWhile_subset _ hd) with hd | hd
  · exact lt_ten_of_mem_decimalDigits d hd
  · exact lt_ten_of_mem_decimalDigits d hd

theorem ne_zero_of_dropWhile (digits : List ℕ) {d : ℕ} {ds : List ℕ}
    (h : digits.dropWhile (· = 0) = d :: ds) : d ≠ 0 := by
  have hfirst := List.head?_dropWhile_not (fun d : ℕ => decide (d = 0)) digits
  rw [h] at hfirst
  simpa using hfirst

theorem ofDigits?_roundsTo (integer fraction : Text) (exponent : ℤ) (negative : Bool) :
    RoundsTo (written integer fraction exponent) negative
      (ofDigits? integer fraction exponent negative) := by
  have hten := lt_ten_of_mem_significant integer fraction
  have hfirst {d : ℕ} {ds : List ℕ} := @ne_zero_of_dropWhile
    (decimalDigits integer ++ decimalDigits fraction) d ds
  rw [written_eq]
  unfold ofDigits?
  dsimp only
  generalize (decimalDigits integer ++ decimalDigits fraction).dropWhile (· = 0) = digits at *
  split
  case h_1 scale hscale =>
    rw [hscale, Int.ofNat_eq_natCast, zpow_natCast]
    exact fit?_roundsTo hten scale negative
  case h_2 n hscale =>
    have hvalue : (valueOfDigits 10 digits / 10 ^ Int.negSucc n : ℚ) =
        (valueOfDigits 10 (digits ++ List.replicate (n + 1) 0) : ℕ) := by
      rw [valueOfDigits_append, valueOfDigits_replicate_zero, List.length_replicate, zpow_negSucc]
      push_cast
      simp
    rw [hscale, hvalue]
    split
    · rename_i hwide
      rcases digits with - | ⟨d, ds⟩
      · rw [List.nil_append, valueOfDigits_replicate_zero, Nat.cast_zero]
        exact roundsTo_zero negative
      · exact roundsTo_wide (hfirst rfl) hwide negative
    · rw [← div_one ((valueOfDigits 10 (digits ++ List.replicate (n + 1) 0) : ℕ) : ℚ),
        ← pow_zero 10]
      refine fit?_roundsTo (fun d hd => ?_) 0 negative
      rcases List.mem_append.1 hd with hd | hd
      · exact hten d hd
      · rw [(List.mem_replicate.1 hd).2]
        decide

/-- **A written number is read as the decimal it rounds to.** It has none exactly if it rounds to
`2 ^ 96` or more. Else, at the greatest scale at which it rounds to no more than 96 bits, the whole
number it rounds to makes the decimal; and a number that has a decimal is read as that one. -/
theorem ofDigits?_rounded (integer fraction : Text) (exponent : ℤ) (negative : Bool) :
    (ofDigits? integer fraction exponent negative = none ↔
      2 ^ 96 - 1 / 2 ≤ written integer fraction exponent) ∧
    (∀ d, ofDigits? integer fraction exponent negative = some d → ∃ s,
      IsGreatest {s | s ≤ 28 ∧
        roundAway (written integer fraction exponent * 10 ^ s) ≤ 2 ^ 96 - 1} s ∧
      ofParts? (roundAway (written integer fraction exponent * 10 ^ s)) s negative = some d ∧
      d.toRat = signed (roundAway (written integer fraction exponent * 10 ^ s)) negative / 10 ^ s) ∧
    ∀ m s : ℕ, m < 2 ^ 96 → s ≤ 28 → written integer fraction exponent = m / 10 ^ s →
      ∃ d, ofDigits? integer fraction exponent negative = some d ∧
        d.toRat = signed m negative / 10 ^ s := by
  obtain ⟨hnone, hsome⟩ := ofDigits?_roundsTo integer fraction exponent negative
  refine ⟨hnone, fun d hd => ?_, fun m s hm hs hvalue => ?_⟩
  · obtain ⟨s, hs, hparts⟩ := hsome d hd
    exact ⟨s, hs, hparts, ofParts?_toRat hparts⟩
  · have hbound : (m : ℚ) ≤ 2 ^ 96 - 1 := by
      have : (m : ℚ) + 1 ≤ 2 ^ 96 := by exact_mod_cast hm
      linarith
    have hle : (m : ℚ) / 10 ^ s ≤ m := div_le_self (by positivity) (one_le_pow₀ (by norm_num))
    have hfits : ofDigits? integer fraction exponent negative ≠ none := by
      rw [Ne, hnone, hvalue, not_le]
      linarith
    obtain ⟨d, hd⟩ := Option.ne_none_iff_exists'.1 hfits
    obtain ⟨s', hgreatest, hparts⟩ := hsome d hd
    have hmem : s ∈ fittingScales (written integer fraction exponent) := by
      refine ⟨hs, ?_⟩
      rw [hvalue, scaled_eq_natCast _ (Nat.le_refl s), roundAway_natCast, Nat.sub_self, pow_zero]
      omega
    have hle' : s ≤ s' := hgreatest.2 hmem
    have hmax := hgreatest.1.2
    rw [hvalue, scaled_eq_natCast _ hle', roundAway_natCast] at hparts hmax
    rw [ofParts?_eq_of_exact hle' hmax hgreatest.1.1] at hparts
    exact ⟨d, hd, ofParts?_toRat hparts⟩

/-- A digit too many behind the greatest magnitude is rounded away, and a quarter is kept. -/
theorem ofDigits?_rounded_greatest :
    (∃ d s, ofDigits? "7922816251426433759354395033".toList "549".toList 0 true = some d ∧
      d = ⟨2 ^ 96 - 1, 1, true⟩ ∧
      IsGreatest {s | s ≤ 28 ∧ roundAway (written "7922816251426433759354395033".toList
        "549".toList 0 * 10 ^ s) ≤ 2 ^ 96 - 1} s) ∧
    (25 < 2 ^ 96 ∧ 2 ≤ 28 ∧ written ['2'] ['5', '0'] (-1) = (25 : ℕ) / 10 ^ 2 ∧
      ∃ d, ofDigits? ['2'] ['5', '0'] (-1) false = some d ∧
        d.toRat = signed 25 false / 10 ^ 2) := by
  have hread : ofDigits? "7922816251426433759354395033".toList "549".toList 0 true =
      some ⟨2 ^ 96 - 1, 1, true⟩ := by decide +kernel
  obtain ⟨-, hrounded, -⟩ :=
    ofDigits?_rounded "7922816251426433759354395033".toList "549".toList 0 true
  obtain ⟨s, hs, -, -⟩ := hrounded _ hread
  have hquarter : written ['2'] ['5', '0'] (-1) = (25 : ℕ) / 10 ^ 2 := by
    have hinteger : valueOfDigits 10 (decimalDigits ['2']) = 2 := by decide
    have hfraction : valueOfDigits 10 (decimalDigits ['5', '0']) = 50 := by decide
    have hlength : (decimalDigits ['5', '0']).length = 2 := by decide
    rw [written, hinteger, hfraction, hlength]
    norm_num
  obtain ⟨-, -, hkept⟩ := ofDigits?_rounded ['2'] ['5', '0'] (-1) false
  exact ⟨⟨_, s, hread, rfl, hs⟩, by norm_num, by norm_num, hquarter,
    hkept 25 2 (by norm_num) (by norm_num) hquarter⟩

end Decimal

end LesTokens
