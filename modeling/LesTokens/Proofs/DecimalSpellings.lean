/-
A natural number with the suffix of a decimal, spelled in each of the bases (`Base.Spells`). In base
ten the decimal has the digits that are written. In the other bases the digits are folded into a
float, and the decimal is the shortest one that reads back as it (`Floating.Shortest`). Up to
`2 ^ 53` that is the same number: the float has it exactly, and no shorter decimal is near enough.
Beyond, the float need not be the number, and its shortest decimal need not be the float.

**`readNumber_spelled`**: the decimal that each spelling of a number below `2 ^ 96` has.
-/
import LesTokens.Proofs.DecimalRounding
import LesTokens.Proofs.FiniteFloats
import LesTokens.Proofs.ShortestDigits

namespace LesTokens

/-! ## Spelling a number -/

namespace Base

/-- What stands in front of the digits of a base. -/
def mark : Base → Text
  | binary => ['0', 'b']
  | decimal => []
  | hexadecimal => ['0', 'x']

/-- Digits of a base that stand for a number. -/
structure Spells (base : Base) (n : ℕ) (ds : Text) : Prop where
  ne_nil : ds ≠ []
  digits : ∀ c ∈ ds, base.isDigit c = true
  value : valueOfDigits base.radix (digitValues ds) = n

/-- Digits with the mark of their base and the suffix of a decimal. -/
def decimalText (base : Base) (ds : Text) : Text := base.mark ++ ds ++ ['m']

variable {base : Base} {n : ℕ} {ds : Text}

theorem digitChar_spec (base : Base) {d : ℕ} (h : d < base.radix) :
    base.isDigit d.digitChar = true ∧ digitValue? d.digitChar = some d := by
  have hall : ∀ base : Base, ∀ d < base.radix,
      base.isDigit d.digitChar = true ∧ digitValue? d.digitChar = some d := by
    intro base
    cases base <;> decide
  exact hall base d h

theorem spells_digit (base : Base) {d : ℕ} (h : d < base.radix) :
    base.Spells d [d.digitChar] := by
  obtain ⟨hdigit, hvalue⟩ := digitChar_spec base h
  refine ⟨List.cons_ne_nil _ _, fun c hc => ?_, ?_⟩
  · rw [List.mem_singleton.1 hc]
    exact hdigit
  · rw [digitValues, List.filterMap_cons_some hvalue]
    simp [valueOfDigits]

theorem Spells.append {m : ℕ} {es : Text} (h : base.Spells n ds) (h' : base.Spells m es) :
    base.Spells (n * base.radix ^ (digitValues es).length + m) (ds ++ es) := by
  refine ⟨List.append_ne_nil_of_left_ne_nil h.ne_nil _, fun c hc => ?_, ?_⟩
  · exact (List.mem_append.1 hc).elim (h.digits c) (h'.digits c)
  · rw [digitValues, List.filterMap_append]
    show valueOfDigits base.radix (digitValues ds ++ digitValues es) = _
    rw [valueOfDigits_append, h.value, h'.value]

/-- **The digits of a number spell it.** -/
theorem spells_toDigits (base : Base) (n : ℕ) : base.Spells n (Nat.toDigits base.radix n) := by
  have hradix : 1 < base.radix := by cases base <;> decide
  induction n using Nat.strong_induction_on with
  | _ n ih =>
    rcases Nat.lt_or_ge n base.radix with hlt | hge
    · rw [Nat.toDigits_of_lt_base hlt]
      exact spells_digit base hlt
    · have hmod := Nat.mod_lt n (show base.radix > 0 by omega)
      have hlength : (digitValues [(n % base.radix).digitChar]).length = 1 := by
        rw [digitValues, List.filterMap_cons_some (digitChar_spec base hmod).2]
        rfl
      have happend := (ih _ (Nat.div_lt_self (by omega) hradix)).append (spells_digit base hmod)
      rw [hlength, pow_one, Nat.div_add_mod'] at happend
      rwa [Nat.toDigits_of_base_le hradix hge]

theorem digitValue?_lt {c : Char} (h : base.isDigit c = true) {d : ℕ}
    (hd : digitValue? c = some d) : d < base.radix := by
  have hrange (low high : Char) (hle : low ≤ c ∧ c ≤ high) :
      low.toNat ≤ c.toNat ∧ c.toNat ≤ high.toNat := hle
  cases base with
  | binary =>
    rcases (by simpa [isDigit] using h : c = '0' ∨ c = '1') with rfl | rfl
    · obtain rfl : 0 = d := Option.some.inj hd
      decide
    · obtain rfl : 1 = d := Option.some.inj hd
      decide
  | decimal =>
    have hc : '0' ≤ c ∧ c ≤ '9' := by
      simpa [isDigit, Char.isDigit, Char.le_def] using h
    rw [digitValue?, if_pos hc] at hd
    obtain rfl := Option.some.inj hd
    have := hrange _ _ hc
    show c.toNat - 48 < 10
    have : c.toNat ≤ 57 := this.2
    omega
  | hexadecimal =>
    show d < 16
    unfold digitValue? at hd
    split at hd
    · rename_i hc
      obtain rfl := Option.some.inj hd
      have : c.toNat ≤ 57 := (hrange _ _ hc).2
      show c.toNat - 48 < 16
      omega
    · split at hd
      · rename_i hc
        obtain rfl := Option.some.inj hd
        have : c.toNat ≤ 102 := (hrange _ _ hc).2
        show c.toNat - 97 + 10 < 16
        omega
      · split at hd
        · rename_i hc
          obtain rfl := Option.some.inj hd
          have : c.toNat ≤ 70 := (hrange _ _ hc).2
          show c.toNat - 65 + 10 < 16
          omega
        · cases hd

theorem Spells.lt_radix (h : base.Spells n ds) : ∀ d ∈ digitValues ds, d < base.radix := by
  intro d hd
  obtain ⟨c, hc, hvalue⟩ := List.mem_filterMap.1 hd
  exact digitValue?_lt (h.digits c hc) hvalue

end Base

/-! ## The parts of a spelled number -/

namespace Literal

variable {base : Base} {n : ℕ} {ds : Text}

/-- A number spelled in a base, as a decimal. -/
def spelled (base : Base) (ds : Text) : Literal := ⟨false, base, ds, none, none, .decimal⟩

theorem scanBase_decimalText (h : base.Spells n ds) :
    scanBase (base.decimalText ds) = (base, base.mark, ds ++ ['m']) := by
  cases base with
  | binary => rfl
  | hexadecimal => rfl
  | decimal =>
    refine scanBase_of_not ?_
    show opensPair (· = '0') isBaseLetter (ds ++ ['m']) = false
    rcases hds : ds with - | ⟨c, - | ⟨d, ds'⟩⟩
    · exact absurd hds h.ne_nil
    · exact Bool.and_false _
    · have hd : d.isDigit = true := h.digits d (by simp [hds])
      show ((c = '0') && isBaseLetter d) = false
      rw [not_isBaseLetter_of_isDigit hd, Bool.and_false]

theorem splitSign_decimalText (h : base.Spells n ds) :
    splitSign (base.decimalText ds) = (false, base.decimalText ds) := by
  cases base with
  | binary => rfl
  | hexadecimal => rfl
  | decimal =>
    obtain ⟨c, ds', rfl⟩ := List.exists_cons_of_ne_nil h.ne_nil
    have hc : c ≠ '-' := by
      rintro rfl
      exact absurd (h.digits _ List.mem_cons_self) (by decide)
    unfold splitSign
    split
    · rename_i heq
      exact absurd (List.cons.inj heq).1 hc
    · rfl

theorem checkDigits_spelled (h : base.Spells n ds) : checkDigits base ds = .ok () := by
  obtain ⟨c, hc⟩ := List.exists_mem_of_ne_nil ds h.ne_nil
  have hall : ds.all (· = '_') = false := by
    refine List.all_eq_false.2 ⟨c, hc, ?_⟩
    have hdigit := h.digits c hc
    rintro hunderscore
    rw [of_decide_eq_true hunderscore] at hdigit
    cases base <;> exact absurd hdigit (by decide)
  unfold checkDigits
  rw [hall, if_neg Bool.false_ne_true]
  cases base with
  | decimal => rfl
  | hexadecimal => rfl
  | binary =>
    have hstray : ds.find? isStrayDigit = none := by
      refine List.find?_eq_none.2 fun d hd => ?_
      rcases (by simpa [Base.isDigit] using h.digits d hd : d = '0' ∨ d = '1') with rfl | rfl <;>
        decide
    rw [hstray]

/-- **A spelled number is taken apart into its digits.** -/
theorem split_spelled (h : base.Spells n ds) :
    Literal.split (base.decimalText ds) = .ok (spelled base ds) := by
  have hrun : ∀ c ∈ ds, isRunChar base c = true := fun c hc => isRunChar_of_isDigit (h.digits c hc)
  have hsuffix : isRunChar base 'm' = false ∧ isExponentMarker base 'm' = false := by
    cases base <;> decide
  have htake : (ds ++ ['m']).takeWhile (isRunChar base) = ds := by
    rw [List.takeWhile_append_of_pos hrun, List.takeWhile_cons_of_neg (by simp [hsuffix.1]),
      List.append_nil]
  have hdrop : (ds ++ ['m']).dropWhile (isRunChar base) = ['m'] := by
    rw [List.dropWhile_append_of_pos hrun, List.dropWhile_cons_of_neg (by simp [hsuffix.1])]
  have hexponent : splitExponent base ['m'] = .ok (none, ['m']) := by
    rw [splitExponent, hsuffix.2]
    rfl
  have hfraction : splitFraction base ['m'] = (none, ['m']) := rfl
  simp only [Literal.split, splitSign_decimalText h, scanBase_decimalText h, htake, hdrop,
    hfraction, hexponent, bind, Except.bind, Option.getD_none, List.append_nil,
    checkDigits_spelled h]
  rfl

end Literal

/-! ## Whole numbers that read back -/

namespace Floating

open FloatFormat

/-- The shortest whole number that reads back as `s * 2 ^ e`: it has as many zeros at its end as any
that does, and of those it is the nearest. -/
structure ShortestWhole (s : ℕ) (e : ℤ) (m : ℕ) : Prop where
  reads : ofNat .double m = .finite false s e
  coarsest : ∀ d k : ℕ, ofNat .double (d * 10 ^ k) = .finite false s e → 10 ^ k ∣ m
  nearest : ∀ m' : ℕ, ofNat .double m' = .finite false s e →
    (∀ d k : ℕ, ofNat .double (d * 10 ^ k) = .finite false s e → 10 ^ k ∣ m') →
      |(m : ℚ) - s * 2 ^ e| ≤ |(m' : ℚ) - s * 2 ^ e|

variable {s n m : ℕ} {e : ℤ} {v : Floating}

theorem ofNat_eq_iff (hs : double.Keeps s e) (he : e ≤ double.maxExponent) (m : ℕ) :
    ofNat .double m = .finite false s e ↔ double.Interval s e m :=
  (rounds_ofNat m).eq_iff_interval double_proper (by decide) hs he

/-- A float that natural digits are folded into is a whole number. -/
theorem Accurate.exists_whole (h : Accurate n (.finite false s e)) :
    ∃ w : ℕ, (s * 2 ^ e : ℚ) = w := by
  cases h with
  | exact hs he hvalue hn => exact ⟨n, hvalue⟩
  | near _ hs he hpos hnear =>
    refine ⟨s * 2 ^ e.toNat, ?_⟩
    push_cast
    rw [← zpow_natCast, Int.toNat_of_nonneg (by omega)]

/-- **The shortest decimal of a whole number is whole.** -/
theorem exists_shortestWhole (tie : TieBreak) (hs : double.Keeps s e)
    (he : e ≤ double.maxExponent) {w : ℕ} (hw : (s * 2 ^ e : ℚ) = w) :
    ∃ d k : ℕ, ShortDecimal.ofFinite .double tie s e = ⟨d, k⟩ ∧ ShortestWhole s e (d * 10 ^ k) := by
  rcases Nat.eq_zero_or_pos s with rfl | hpos
  · obtain rfl : e = double.minExponent := hs.full.resolve_left (by decide)
    refine ⟨0, 0, rfl, rfl, fun d k _ => ?_, fun m' _ _ => ?_⟩
    · rw [Nat.zero_mul]
      exact dvd_zero _
    · rw [Nat.zero_mul, Nat.cast_zero, zero_mul, sub_zero, abs_zero]
      exact abs_nonneg _
  · have hshort := ShortDecimal.ofFinite_shortest (f := double) tie (by decide) hs hpos
    have hnonneg : 0 ≤ (ShortDecimal.ofFinite .double tie s e).exponent := by
      refine Int.not_lt.1 fun hneg => hshort.coarsest 0 hneg w ?_
      rw [zpow_zero, mul_one, ← hw]
      exact interval_self
    generalize ShortDecimal.ofFinite .double tie s e = x at hshort hnonneg
    obtain ⟨d, k⟩ := x
    obtain ⟨k, rfl⟩ := Int.eq_ofNat_of_zero_le hnonneg
    have hgrid (d' k' : ℕ) : ofNat .double (d' * 10 ^ k') = .finite false s e ↔
        double.Interval s e (d' * 10 ^ (k' : ℤ)) := by
      rw [ofNat_eq_iff hs he]
      push_cast
      rfl
    have hreads := (hgrid d k).2 hshort.reads
    refine ⟨d, k, rfl, hreads, fun d' k' h => ?_, fun m' hm' hall => ?_⟩
    · have hle : k' ≤ k := by
        by_contra hlt
        exact hshort.coarsest k' (by show (k : ℤ) < k'; omega) d' ((hgrid d' k').1 h)
      exact Dvd.dvd.mul_left (Nat.pow_dvd_pow 10 hle) d
    · obtain ⟨d', rfl⟩ := hall d k hreads
      rw [Nat.mul_comm] at hm'
      have hnearest := hshort.nearest d' ((hgrid d' k).1 hm')
      push_cast
      rw [mul_comm (10 ^ k : ℚ)]
      exact hnearest

theorem exponent_le (hs : double.Keeps s e) (hvalue : (s * 2 ^ e : ℚ) = n) (hn : n ≤ 2 ^ 53) :
    e ≤ 0 ∨ e = 1 ∧ n = 2 ^ 53 := by
  rcases hs.full with hfull | hmin
  · have hfull' : (2 : ℚ) ^ (52 : ℤ) ≤ s := by exact_mod_cast hfull
    have hle : (2 : ℚ) ^ (52 + e) ≤ 2 ^ (53 : ℤ) := by
      rw [zpow_add₀ two_ne_zero]
      calc (2 : ℚ) ^ (52 : ℤ) * 2 ^ e ≤ s * 2 ^ e :=
            mul_le_mul_of_nonneg_right hfull' (by positivity)
        _ = n := hvalue
        _ ≤ 2 ^ (53 : ℤ) := by exact_mod_cast hn
    have := (zpow_le_zpow_iff_right₀ one_lt_two).1 hle
    rcases Int.lt_or_le 0 e with hpos | hle
    · obtain rfl : e = 1 := by omega
      refine .inr ⟨rfl, ?_⟩
      rw [zpow_one] at hvalue
      have hvalue : s * 2 = n := by exact_mod_cast hvalue
      have hfull : 2 ^ 52 ≤ s := hfull
      omega
    · exact .inl hle
  · left
    rw [hmin]
    decide

/-- Up to `2 ^ 53` no other whole number reads back as one; only at `2 ^ 53` itself do its
neighbours. -/
theorem near_of_reads (hs : double.Keeps s e) (he : e ≤ double.maxExponent)
    (hvalue : (s * 2 ^ e : ℚ) = n) (hn : n ≤ 2 ^ 53) (hm : ofNat .double m = .finite false s e) :
    m = n ∨ n = 2 ^ 53 ∧ m ≤ n + 1 ∧ n ≤ m + 1 := by
  have hdist := abs_le.1 ((ofNat_eq_iff hs he m).1 hm).dist_le
  rw [hvalue] at hdist
  rcases exponent_le hs hvalue hn with hle | ⟨rfl, hn⟩
  · have hone : (2 : ℚ) ^ e ≤ 1 := zpow_le_one_of_nonpos₀ one_le_two hle
    have hlt : (m : ℚ) < (n + 1 : ℕ) := by
      push_cast
      linarith
    have hgt : (n : ℚ) < (m + 1 : ℕ) := by
      push_cast
      linarith
    exact .inl (Nat.le_antisymm (Nat.le_of_lt_succ (Nat.cast_lt.1 hlt))
      (Nat.le_of_lt_succ (Nat.cast_lt.1 hgt)))
  · rw [zpow_one] at hdist
    have hle : (m : ℚ) ≤ (n + 1 : ℕ) := by
      push_cast
      linarith
    have hge : (n : ℚ) ≤ (m + 1 : ℕ) := by
      push_cast
      linarith
    exact .inr ⟨hn, Nat.cast_le.1 hle, Nat.cast_le.1 hge⟩

/-- **Up to `2 ^ 53` a whole number is its own shortest one.** A neighbour of `2 ^ 53` that reads
back as it ends in no zero either. -/
theorem ShortestWhole.eq_of_le (h : ShortestWhole s e m) (hs : double.Keeps s e)
    (he : e ≤ double.maxExponent) (hvalue : (s * 2 ^ e : ℚ) = n) (hn : n ≤ 2 ^ 53) : m = n := by
  have hself : ofNat .double n = .finite false s e := by
    rw [ofNat_eq_iff hs he, ← hvalue]
    exact interval_self
  have hzeros (d k : ℕ) (hd : ofNat .double (d * 10 ^ k) = .finite false s e) : 10 ^ k ∣ n := by
    rcases near_of_reads hs he hvalue hn hd with hd | ⟨rfl, hle, hge⟩
    · exact ⟨d, by rw [← hd, Nat.mul_comm]⟩
    · rcases Nat.eq_zero_or_pos k with rfl | hk
      · exact one_dvd _
      · obtain ⟨j, rfl⟩ : ∃ j, k = j + 1 := ⟨k - 1, by omega⟩
        have hten : d * 10 ^ (j + 1) = d * 10 ^ j * 10 := by ring
        rw [hten] at hle hge
        omega
  have hzero := h.nearest n hself hzeros
  rw [hvalue, sub_self, abs_zero] at hzero
  have hm := abs_nonpos_iff.1 hzero
  exact_mod_cast sub_eq_zero.1 hm

end Floating

/-! ## The decimal of a float -/

theorem Decimal.ofDigits?_whole {t : Text} (h : ∀ c ∈ t, c.isDigit = true) {m : ℕ}
    (hm : Nat.ofDigitChars 10 t 0 = m) :
    ofDigits? t [] 0 false = if m < 2 ^ 96 then some ⟨m, 0, false⟩ else none := by
  have hmax : maxMantissa = 2 ^ 96 - 1 := rfl
  split
  · rename_i hlt
    rw [ofDigits?_eq h (by simp) (by rw [List.append_nil, hm]; omega) (Nat.zero_le _),
      List.append_nil, hm]
    rfl
  · rename_i hge
    refine (ofDigits?_roundsTo t [] 0 false).none_iff.2 ?_
    have hvalue : valueOfDigits 10 (decimalDigits t) = m := by
      rw [decimalDigits_eq h, valueOfDigits_map, hm]
    have hle : ((2 ^ 96 : ℕ) : ℚ) ≤ m := by exact_mod_cast Nat.not_lt.1 hge
    have hfraction : decimalDigits [] = [] := rfl
    rw [written, hvalue, hfraction, zpow_zero, mul_one]
    simp only [valueOfDigits, List.foldl_nil, Nat.cast_zero, zero_div, add_zero]
    push_cast at hle
    linarith

namespace Literal

open Floating FloatFormat

variable {base : Base} {s n m d k : ℕ} {e : ℤ} {ds : Text}

theorem write_whole (h : ShortDecimal.ofFinite .double .awayFromZero s e = ⟨d, k⟩) :
    (FloatNotation.plain.write .double (.finite false s e)).toList =
      Nat.toDigits 10 d ++ List.replicate k '0' := by
  have hlength : 0 < (Nat.toDigits 10 d).length := List.length_pos_iff.2 Nat.toDigits_ne_nil
  have htext : FloatNotation.plain.magnitudeText .double s e =
      FloatNotation.positionalText false (Nat.toDigits 10 d) ((Nat.toDigits 10 d).length + k) := by
    unfold FloatNotation.magnitudeText
    rw [show FloatNotation.plain.tie = .awayFromZero from rfl, h]
    rfl
  have hpositional : FloatNotation.positionalText false (Nat.toDigits 10 d)
      ((Nat.toDigits 10 d).length + k) = Nat.toDigits 10 d ++ List.replicate k '0' := by
    unfold FloatNotation.positionalText
    rw [if_neg (by omega), if_pos (by omega), add_sub_cancel_left, Int.toNat_natCast,
      if_neg Bool.false_ne_true, List.append_nil]
  rw [FloatNotation.write, String.toList_append, String.toList_ofList, htext, hpositional]
  rfl

/-- **The decimal of a whole number is its shortest one**, if that fits. -/
theorem decimalOfFloat?_whole (h : ShortDecimal.ofFinite .double .awayFromZero s e = ⟨d, k⟩) :
    decimalOfFloat? (.finite false s e) false =
      if d * 10 ^ k < 2 ^ 96 then some ⟨d * 10 ^ k, 0, false⟩ else none := by
  have hdigits : ∀ c ∈ Nat.toDigits 10 d ++ List.replicate k '0', c.isDigit = true := by
    intro c hc
    rcases List.mem_append.1 hc with hc | hc
    · exact Nat.isDigit_of_mem_toDigits (by decide) (by decide) hc
    · rw [(List.mem_replicate.1 hc).2]
      decide
  have hpoint : ∀ c ∈ Nat.toDigits 10 d ++ List.replicate k '0', decide (c ≠ '.') = true := by
    rintro c hc
    refine decide_eq_true ?_
    rintro rfl
    exact absurd (hdigits _ hc) (by decide)
  have hvalue : Nat.ofDigitChars 10 (Nat.toDigits 10 d ++ List.replicate k '0') 0 = d * 10 ^ k := by
    rw [Nat.ofDigitChars_append, Nat.ofDigitChars_ten_toDigits, Nat.ofDigitChars_replicate_zero,
      Nat.mul_comm]
  unfold decimalOfFloat?
  rw [write_whole h]
  dsimp only
  rw [List.takeWhile_eq_self_iff.2 hpoint, List.dropWhile_eq_nil_iff.2 hpoint, List.drop_nil]
  exact Decimal.ofDigits?_whole hdigits hvalue

theorem scaleByPower_zero (hs : double.Keeps s e) (he : e ≤ double.maxExponent) :
    scaleByPower (.finite false s e) 0 = .finite false s e := by
  have hpos : (0 : ℚ) < 2 ^ e := by positivity
  have hmul : mul .double (.finite false s e) (twoPow .double 0) = .finite false s e := by
    obtain ⟨hlt, -⟩ | ⟨hlt, -⟩ | ⟨-, -, s', e', -, -, hvalue, h⟩ := twoPow_cases 0
    · omega
    · omega
    · have hproduct : Rounds .double false _ _ := rounds_mul false false s s' e e'
      rw [hvalue, zpow_zero, mul_one] at hproduct
      rw [h, hproduct.eq_of_between double_proper hs (le_refl _) (by nlinarith),
        if_neg (Int.not_lt.2 he)]
  show mul .double (mul .double _ (twoPow .double 0)) (twoPow .double 0) = _
  rw [hmul, hmul]

/-! ## The decimal of a spelled number -/

theorem value_spelled_decimal (h : Base.decimal.Spells n ds) (hn : n < 2 ^ 96) :
    (spelled .decimal ds).value = .ok (.decimal ⟨n, 0, false⟩) := by
  have hvalue : Nat.ofDigitChars 10 ds 0 = n := by
    rw [← valueOfDigits_map, ← digitValues_eq h.digits]
    exact h.value
  have hread := Decimal.ofDigits?_whole h.digits hvalue
  rw [if_pos hn] at hread
  have hdecimal : (spelled .decimal ds).decimal? = .ok (some ⟨n, 0, false⟩) := by
    rw [← hread]
    rfl
  show decimalValue _ = _
  rw [decimalValue, hdecimal]
  rfl

theorem scaled_spelled (hs : double.Keeps s e) (he : e ≤ double.maxExponent)
    (h : foldDigits base.radix (digitValues ds) = .finite false s e) :
    (spelled base ds).scaled = .finite false s e := by
  have hdigits : (spelled base ds).allDigits = digitValues ds := List.append_nil _
  have hscale : (spelled base ds).scale = 0 := rfl
  have hbase : (spelled base ds).base = base := rfl
  rw [scaled, hdigits, hscale, hbase, h]
  split
  · rename_i hzero
    obtain rfl : s = 0 := of_decide_eq_true hzero
    rw [hs.full.resolve_left (by decide)]
    rfl
  · exact scaleByPower_zero hs he

/-- **In the other bases the decimal is the shortest one of the float that the digits are folded
into.** -/
theorem value_spelled (hbase : base ≠ .decimal) (h : base.Spells n ds) (hn : n < 2 ^ 1023) :
    ∃ s e m, foldDigits base.radix (digitValues ds) = .finite false s e ∧
      Accurate n (.finite false s e) ∧ ShortestWhole s e m ∧ (n ≤ 2 ^ 53 → m = n) ∧
      (spelled base ds).value =
        if m < 2 ^ 96 then .ok (.decimal ⟨m, 0, false⟩) else .error (.overflow .decimal) := by
  have haccurate := foldDigits_accurate hbase h.lt_radix
  rw [h.value] at haccurate
  obtain ⟨s, e, hs, he, hfold⟩ := haccurate.exists_finite hn
  rw [hfold] at haccurate
  obtain ⟨w, hw⟩ := haccurate.exists_whole
  obtain ⟨d, k, hshort, hwhole⟩ := exists_shortestWhole .awayFromZero hs he hw
  refine ⟨s, e, d * 10 ^ k, hfold, haccurate, hwhole, fun hle => ?_, ?_⟩
  · cases haccurate with
    | exact _ _ hvalue => exact hwhole.eq_of_le hs he hvalue hle
    | near hlt => omega
  · have hradix : (spelled base ds).radixFloat = .ok (.finite false s e) := by
      rw [radixFloat_eq, scaled_spelled hs he hfold]
      rfl
    have hne : (spelled base ds).base ≠ .decimal := hbase
    have hdecimal :
        (spelled base ds).decimal? = .ok (decimalOfFloat? (.finite false s e) false) := by
      simp only [decimal?, hne, if_false, hradix, bind, Except.bind, isFinite, if_true]
      rfl
    show decimalValue _ = _
    rw [decimalValue, hdecimal, decimalOfFloat?_whole hshort]
    by_cases hlt : d * 10 ^ k < 2 ^ 96
    · rw [if_pos hlt, if_pos hlt]
      rfl
    · rw [if_neg hlt, if_neg hlt]
      rfl

end Literal

/-- **The decimal of each spelling of a number.** In base ten it is the number, and up to `2 ^ 53`
it is in each base. Beyond, the digits of the other bases are folded into a float less than a unit away
from the number, and the decimal is the shortest whole number that reads back as that float. -/
theorem readNumber_spelled {n : ℕ} (hn : n < 2 ^ 96) {base : Base} {ds : Text}
    (h : base.Spells n ds) :
    (base = .decimal ∨ n ≤ 2 ^ 53 →
      readNumber (base.decimalText ds) = .ok (.decimal ⟨n, 0, false⟩)) ∧
    (base ≠ .decimal → ∃ s e m,
      Literal.foldDigits base.radix (digitValues ds) = .finite false s e ∧
      Floating.Accurate n (.finite false s e) ∧ Floating.ShortestWhole s e m ∧
      readNumber (base.decimalText ds) =
        if m < 2 ^ 96 then .ok (.decimal ⟨m, 0, false⟩) else .error (.overflow .decimal)) := by
  have hread := readNumber_of_split (Literal.split_spelled h)
  have hfloat (hbase : base ≠ .decimal) := Literal.value_spelled hbase h
    (hn.trans (pow_lt_pow_right₀ one_lt_two (by decide)))
  constructor
  · intro hexact
    by_cases hbase : base = .decimal
    · subst hbase
      rw [hread]
      exact Literal.value_spelled_decimal h hn
    · obtain ⟨s, e, m, -, -, -, heq, hvalue⟩ := hfloat hbase
      rw [heq (hexact.resolve_left hbase), if_pos hn] at hvalue
      rw [hread, hvalue]
  · intro hbase
    obtain ⟨s, e, m, hfold, haccurate, hwhole, -, hvalue⟩ := hfloat hbase
    exact ⟨s, e, m, hfold, haccurate, hwhole, hread.trans hvalue⟩

/-- The greatest number of 53 bits in base sixteen, and the greatest one of all in base ten. -/
theorem readNumber_spelled_greatest :
    readNumber (Base.hexadecimal.decimalText (Nat.toDigits 16 (2 ^ 53))) =
        .ok (.decimal ⟨2 ^ 53, 0, false⟩) ∧
      readNumber (Base.decimal.decimalText (Nat.toDigits 10 (2 ^ 96 - 1))) =
        .ok (.decimal ⟨2 ^ 96 - 1, 0, false⟩) :=
  ⟨(readNumber_spelled (by decide) (Base.spells_toDigits .hexadecimal _)).1 (.inr (le_refl _)),
    (readNumber_spelled (by decide) (Base.spells_toDigits .decimal _)).1 (.inl rfl)⟩

/-- The least number whose digits in base sixteen are those of another decimal. -/
theorem not_forall_spelled :
    ¬∀ n < 2 ^ 96, ∀ (base : Base) (ds : Text), base.Spells n ds →
      readNumber (base.decimalText ds) = .ok (.decimal ⟨n, 0, false⟩) := by
  intro h
  have hread : readNumber (Base.hexadecimal.decimalText (Nat.toDigits 16 (2 ^ 53 + 1))) =
      .ok (.decimal ⟨2 ^ 53, 0, false⟩) := by
    decide +kernel
  have hclaim := h (2 ^ 53 + 1) (by decide) .hexadecimal _ (Base.spells_toDigits .hexadecimal _)
  rw [show Base.hexadecimal.radix = 16 from rfl, hread] at hclaim
  exact absurd (Except.ok.inj hclaim) (by decide)

end LesTokens
