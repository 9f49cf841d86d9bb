/-
Zeros behind the fraction of a number. They are part of the fraction and change no other part
(`Literal.split_padded`), and each takes from the scale what it adds to the digits
(`Literal.shifted_eq`). In base ten that is all, because a number is rounded once whatever digits it
is written with. In base two and sixteen the digits are a float before they are scaled: enough zeros
make them too great for one, or the scale too small for two powers of two.

**`readNumber_padded`**: short of that, zeros behind a fraction never change what a number is read
as.
-/
import LesTokens.Proofs.FloatValues
import LesTokens.Proofs.IntegerWidths

namespace LesTokens

namespace Literal

/-! ## A number with more zeros -/

/-- A number with zeros behind its fraction. -/
def padded (l : Literal) (k : ℕ) : Literal :=
  { l with fraction := some (l.fractionDigits ++ List.replicate k '0') }

theorem splitSign_point {u : Text} (hu : '.' ∉ u) :
    ∃ negative u', '.' ∉ u' ∧ ∀ r, splitSign (u ++ '.' :: r) = (negative, u' ++ '.' :: r) := by
  cases u with
  | nil => exact ⟨false, [], hu, fun r => rfl⟩
  | cons c u =>
    by_cases hc : c = '-'
    · subst hc
      exact ⟨true, u, fun h => hu (List.mem_cons_of_mem _ h), fun r => rfl⟩
    · refine ⟨false, c :: u, hu, fun r => ?_⟩
      rw [List.cons_append, splitSign]
      rintro t heq
      exact hc (List.cons.inj heq).1

theorem scanBase_point {u : Text} (hu : '.' ∉ u) : ∃ base marker u', '.' ∉ u' ∧
    ∀ r, scanBase (u ++ '.' :: r) = (base, marker, u' ++ '.' :: r) := by
  rcases u with - | ⟨c, - | ⟨d, u⟩⟩
  · exact ⟨.decimal, [], [], hu, fun r => rfl⟩
  · refine ⟨.decimal, [], [c], hu, fun r => scanBase_of_not ?_⟩
    simp [opensPair, opensWith, isBaseLetter]
  · have hu' : '.' ∉ u := fun h => hu (List.mem_cons_of_mem _ (List.mem_cons_of_mem _ h))
    rcases scanBase_cases (c :: d :: u) with ⟨c', s, heq, base, hbase⟩ | hp
    · obtain ⟨rfl, hd⟩ := List.cons.inj heq
      obtain ⟨rfl, rfl⟩ := List.cons.inj hd
      exact ⟨base, ['0', d], u, hu', fun r => hbase _⟩
    · exact ⟨.decimal, [], c :: d :: u, hu, fun r => scanBase_of_not hp⟩

/-- Without a point before it, the digits before the fraction are all that is left of a number
behind its base. -/
theorem run_of_point {base : Base} {u r behind ds : Text} (hu : '.' ∉ u)
    (h : splitFraction base ((u ++ '.' :: r).dropWhile (isRunChar base)) = (some ds, behind)) :
    ∀ c ∈ u, isRunChar base c = true := by
  by_contra hnot
  have hne : u.dropWhile (isRunChar base) ≠ [] := by
    rw [Ne, List.dropWhile_eq_nil_iff]
    exact hnot
  rw [List.dropWhile_append, if_neg (by simpa using hne)] at h
  obtain ⟨run, hrun, -⟩ | ⟨-, hnone, -⟩ := splitFraction_cases h
  · obtain ⟨c, s, hs⟩ := List.exists_cons_of_ne_nil hne
    rw [hs, List.cons_append] at hrun
    obtain ⟨rfl, -⟩ := List.cons.inj hrun
    refine hu ((List.dropWhile_subset (isRunChar base)) ?_)
    rw [hs]
    exact List.mem_cons_self
  · cases hnone

theorem isRunChar_zero (base : Base) : isRunChar base '0' = true := by
  cases base <;> decide

theorem isRunChar_point (base : Base) : isRunChar base '.' = false := by
  cases base <;> decide

theorem checkDigits_zeros {base : Base} {digits : Text} (h : checkDigits base digits = .ok ())
    (k : ℕ) : checkDigits base (digits ++ List.replicate k '0') = .ok () := by
  unfold checkDigits at h ⊢
  split at h
  · cases h
  · rename_i hall
    have hall' : ¬(digits ++ List.replicate k '0').all (· = '_') = true := by
      rw [List.all_append, Bool.and_eq_true]
      exact fun hboth => hall hboth.1
    rw [if_neg hall']
    have hzeros : (List.replicate k '0').find? isStrayDigit = none := by
      rw [List.find?_eq_none]
      intro c hc
      rw [(List.mem_replicate.1 hc).2]
      decide
    rw [List.find?_append, hzeros, Option.or_none]
    exact h

/-- **The parts before a point do not depend on what is behind it.** Another fraction before the
same exponent and suffix makes the same number with that fraction. -/
theorem split_point {u r : Text} {l : Literal} (hu : '.' ∉ u) (h : split (u ++ '.' :: r) = .ok l)
    (hsome : l.fraction.isSome = true) :
    r.takeWhile (isRunChar l.base) = l.fractionDigits ∧
    ∀ ds, (∀ c ∈ ds, isRunChar l.base c = true) → checkDigits l.base (l.integer ++ ds) = .ok () →
      split (u ++ '.' :: (ds ++ r.dropWhile (isRunChar l.base))) =
        .ok { l with fraction := some ds } := by
  obtain ⟨unsigned, body, behind, suffix, hparts⟩ := split_eq_ok_iff.1 h
  obtain ⟨negative, u₁, hu₁, hsign⟩ := splitSign_point hu
  obtain ⟨base, marker, u₂, hu₂, hbase⟩ := scanBase_point hu₁
  obtain ⟨hnegative, rfl⟩ := Prod.mk.inj ((hsign r).symm.trans hparts.sign)
  obtain ⟨marker', hmarker⟩ := hparts.base
  obtain ⟨rfl, hrest⟩ := Prod.mk.inj ((hbase r).symm.trans hmarker)
  obtain ⟨rfl, rfl⟩ := Prod.mk.inj hrest
  obtain ⟨digits, hdigits⟩ := Option.isSome_iff_exists.1 hsome
  have hfraction := hparts.fraction
  rw [hdigits] at hfraction
  have hbody (r : Text) : (u₂ ++ '.' :: r).dropWhile (isRunChar l.base) = '.' :: r :=
    dropWhile_append_eq_iff.2 ⟨run_of_point hu₂ hfraction, isRunChar_point l.base⟩
  have hinteger (r : Text) : (u₂ ++ '.' :: r).takeWhile (isRunChar l.base) = u₂ :=
    takeWhile_eq_of_dropWhile (hbody r)
  rw [hbody] at hfraction
  obtain ⟨htake, rfl⟩ := Prod.mk.inj hfraction
  refine ⟨?_, fun ds hrun hcheck => ?_⟩
  · rw [fractionDigits, hdigits]
    exact Option.some.inj htake
  · have hstop : opensWith (isRunChar l.base) (r.dropWhile (isRunChar l.base)) = false :=
      opensWith_dropWhile (isRunChar l.base) r
    have hdrop := dropWhile_append_eq_iff.2 ⟨hrun, hstop⟩
    refine split_eq_ok_iff.2 ⟨u₁ ++ '.' :: (ds ++ r.dropWhile (isRunChar l.base)),
      u₂ ++ '.' :: (ds ++ r.dropWhile (isRunChar l.base)), r.dropWhile (isRunChar l.base), suffix,
      ?_⟩
    constructor
    case sign => rw [hsign, hnegative]
    case base => exact ⟨marker, hbase _⟩
    case integer => rw [hinteger, ← hparts.integer, hinteger]
    case fraction => rw [hbody, splitFraction, hdrop, takeWhile_eq_of_dropWhile hdrop]
    case exponent => exact hparts.exponent
    case suffix => exact hparts.suffix
    case digits => exact hcheck

/-- **More zeros behind a fraction are part of it**, and change no other part. -/
theorem split_padded {u ds w : Text} {l : Literal} (hu : '.' ∉ u)
    (h : split (u ++ '.' :: (ds ++ w)) = .ok l) (hds : l.fraction = some ds) (k : ℕ) :
    split (u ++ '.' :: (ds ++ List.replicate k '0' ++ w)) = .ok (l.padded k) := by
  have hdigits : l.fractionDigits = ds := by rw [fractionDigits, hds, Option.getD_some]
  obtain ⟨htake, hpoint⟩ := split_point hu h (by rw [hds, Option.isSome_some])
  have hdrop : (ds ++ w).dropWhile (isRunChar l.base) = w := by
    have hsplit := List.takeWhile_append_dropWhile (p := isRunChar l.base) (l := ds ++ w)
    rw [htake, hdigits] at hsplit
    exact List.append_cancel_left hsplit
  obtain ⟨unsigned, body, behind, suffix, hparts⟩ := split_eq_ok_iff.1 h
  have hcheck := checkDigits_zeros hparts.digits k
  rw [hdigits, List.append_assoc] at hcheck
  have hpadded := hpoint (ds ++ List.replicate k '0') (fun c hc => ?_) hcheck
  · rw [hdrop] at hpadded
    rw [hpadded, padded, hdigits]
  · rcases List.mem_append.1 hc with hc | hc
    · exact (dropWhile_append_eq_iff.1 hdrop).1 c hc
    · rw [(List.mem_replicate.1 hc).2]
      exact isRunChar_zero l.base

end Literal

/-! ## Values of digits -/

theorem digitValues_zeros (run : Text) (k : ℕ) :
    digitValues (run ++ List.replicate k '0') = digitValues run ++ List.replicate k 0 := by
  have hzero : digitValue? '0' = some 0 := rfl
  rw [digitValues, List.filterMap_append, List.filterMap_replicate_of_some hzero, digitValues]

theorem valueOfDigits_zeros (radix : ℕ) (digits : List ℕ) (k : ℕ) :
    valueOfDigits radix (digits ++ List.replicate k 0) =
      valueOfDigits radix digits * radix ^ k := by
  rw [valueOfDigits_append, valueOfDigits_replicate_zero, List.length_replicate, Nat.add_zero]

namespace Decimal

theorem decimalDigits_zeros (run : Text) (k : ℕ) :
    decimalDigits (run ++ List.replicate k '0') = decimalDigits run ++ List.replicate k 0 := by
  simp [decimalDigits, Char.isDigit]

/-- **A number has one decimal.** -/
theorem RoundsTo.unique {x : ℚ} {negative : Bool} {d d' : Option Decimal}
    (h : RoundsTo x negative d) (h' : RoundsTo x negative d') : d = d' := by
  cases d with
  | none => exact (h'.none_iff.2 (h.none_iff.1 rfl)).symm
  | some a =>
    cases d' with
    | none => exact h.none_iff.2 (h'.none_iff.1 rfl)
    | some b =>
      obtain ⟨s, hs, hparts⟩ := h.eq_ofParts a rfl
      obtain ⟨s', hs', hparts'⟩ := h'.eq_ofParts b rfl
      obtain rfl := hs.unique hs'
      rw [← hparts, ← hparts']

theorem written_zeros (integer fraction : Text) (exponent : ℤ) (k : ℕ) :
    written integer (fraction ++ List.replicate k '0') exponent =
      written integer fraction exponent := by
  unfold written
  rw [decimalDigits_zeros, valueOfDigits_zeros, List.length_append, List.length_replicate, pow_add]
  push_cast
  rw [mul_div_mul_right _ _ (by positivity)]

/-- **Zeros behind a fraction change no decimal.** -/
theorem ofDigits?_zeros (integer fraction : Text) (exponent : ℤ) (negative : Bool) (k : ℕ) :
    ofDigits? integer (fraction ++ List.replicate k '0') exponent negative =
      ofDigits? integer fraction exponent negative := by
  have h := ofDigits?_roundsTo integer (fraction ++ List.replicate k '0') exponent negative
  rw [written_zeros] at h
  exact h.unique (ofDigits?_roundsTo integer fraction exponent negative)

end Decimal

namespace Literal

open Floating FloatFormat

variable {l : Literal}

theorem fractionDigits_padded (l : Literal) (k : ℕ) :
    (l.padded k).fractionDigits = l.fractionDigits ++ List.replicate k '0' := rfl

theorem allDigits_padded (l : Literal) (k : ℕ) :
    (l.padded k).allDigits = l.allDigits ++ List.replicate k 0 := by
  rw [allDigits, fractionDigits_padded, digitValues_zeros, ← List.append_assoc]
  rfl

theorem isFloating_padded (l : Literal) (k : ℕ) : (l.padded k).isFloating = true := rfl

theorem length_fraction_padded (l : Literal) (k : ℕ) :
    (digitValues (l.padded k).fractionDigits).length =
      (digitValues l.fractionDigits).length + k := by
  rw [fractionDigits_padded, digitValues_zeros, List.length_append, List.length_replicate]

/-! ## Base ten -/

theorem decimalFloat_padded (l : Literal) (k : ℕ) : (l.padded k).decimalFloat = l.decimalFloat := by
  have h := (l.padded k).rounds_decimalFloat
  rw [allDigits_padded, valueOfDigits_zeros, length_fraction_padded] at h
  have hexponent : (l.padded k).boundedExponent = l.boundedExponent := rfl
  have hvalue : ((valueOfDigits 10 l.allDigits * 10 ^ k : ℕ) *
      10 ^ (l.boundedExponent - ((digitValues l.fractionDigits).length + k : ℕ)) : ℚ) =
      valueOfDigits 10 l.allDigits *
        10 ^ (l.boundedExponent - (digitValues l.fractionDigits).length) := by
    push_cast
    rw [mul_assoc, ← zpow_natCast (10 : ℚ) k, ← zpow_add₀ (by norm_num)]
    congr 2
    omega
  rw [hexponent, hvalue] at h
  exact h.unique double_proper l.rounds_decimalFloat

/-- **In base ten zeros behind a fraction never change a value.** -/
theorem value_padded_decimal (hbase : l.base = .decimal) (hfloating : l.isFloating = true) (k : ℕ) :
    (l.padded k).value = l.value := by
  have hbase' : (l.padded k).base = .decimal := hbase
  have hmagnitude : (l.padded k).floatMagnitude = l.floatMagnitude := by
    rw [floatMagnitude, if_pos hbase', decimalFloat_padded, floatMagnitude, if_pos hbase]
  have hdecimal : (l.padded k).decimal? = l.decimal? := by
    rw [decimal?, if_pos hbase', decimal?, if_pos hbase, fractionDigits_padded]
    simp only [Decimal.ofDigits?_zeros]
    rfl
  rw [value, if_pos (l.isFloating_padded k), value, if_pos hfloating]
  unfold fractionalValue
  rw [decimalValue, decimalValue, floatValue, floatValue, hmagnitude, hdecimal]
  rfl

/-! ## Base two and sixteen -/

theorem radix_eq_two_pow {base : Base} (hbase : base ≠ .decimal) :
    base.radix = 2 ^ bitsPerDigit base := by
  cases base with
  | decimal => exact absurd rfl hbase
  | binary | hexadecimal => rfl

/-- A digit zero more shifts a whole number, unless it becomes too great for a float. -/
theorem whole_shift {b n : ℕ} (hb : b ≤ 4) {m : Floating} (h : Whole n m) :
    n ≠ 0 ∧
      add .double (mul .double m (ofNat .double (2 ^ b))) (ofNat .double 0) = .infinite false ∨
    Whole (n * 2 ^ b) (add .double (mul .double m (ofNat .double (2 ^ b))) (ofNat .double 0)) := by
  have hwhole := h
  obtain ⟨-, -, hvalue⟩ := h
  rename_i s e
  obtain ⟨s', e', hradix, hofNat⟩ := Accurate.exists_ofNat (n := 1) (by omega) hb
  rw [Nat.cast_one, one_mul] at hradix
  rw [Nat.one_mul] at hofNat
  have hproduct : Rounds .double false _ _ := rounds_mul false false s s' e e'
  rw [hvalue, hradix, ← zpow_natCast, ← hofNat] at hproduct
  have hzero : ofNat .double 0 = .finite false 0 (-1074) := rfl
  rw [hzero]
  obtain ⟨t, u, ht, hu, hexact, hmul⟩ | ⟨hge, hmul⟩ := hwhole.exact (by omega) hproduct
  · right
    have hsum : Rounds .double false _ _ := rounds_add (f := double) t 0 u (-1074)
    rw [Nat.cast_zero, zero_mul, add_zero] at hsum
    have hpos : (0 : ℚ) < 2 ^ u := by positivity
    rw [hmul, hsum.eq_of_between double_proper ht (le_refl _) (by nlinarith), if_neg (by omega)]
    refine .mk ht hu (hexact.trans ?_)
    push_cast
    rw [zpow_natCast]
  · refine .inl ⟨?_, by rw [hmul]; rfl⟩
    rintro rfl
    rw [Nat.cast_zero, zero_mul] at hge
    exact absurd hge (not_le.2 (by positivity))

theorem infinite_shift {base : Base} :
    add .double (mul .double (.infinite false) (ofNat .double base.radix)) (ofNat .double 0) =
      .infinite false := by
  have hmagnitude : Magnitude .double (ofNat .double base.radix) :=
    (rounds_ofNat base.radix).magnitude double_proper
  rw [mul_infinite hmagnitude, isZero_ofNat (by cases base <;> decide)]
  rfl

theorem foldDigits_succ (radix : ℕ) (digits : List ℕ) (k : ℕ) :
    foldDigits radix (digits ++ List.replicate (k + 1) 0) =
      add .double (mul .double (foldDigits radix (digits ++ List.replicate k 0))
        (ofNat .double radix)) (ofNat .double 0) := by
  rw [List.replicate_succ', ← List.append_assoc, foldDigits, List.foldl_append]
  rfl

/-- **Digits with zeros behind them** are folded into the number that is shifted by them, unless it
becomes too great for a float. -/
theorem foldDigits_zeros {base : Base} (hbase : base ≠ .decimal) {digits : List ℕ} {n : ℕ}
    (h : Whole n (foldDigits base.radix digits)) (k : ℕ) :
    n ≠ 0 ∧ foldDigits base.radix (digits ++ List.replicate k 0) = .infinite false ∨
    Whole (n * base.radix ^ k) (foldDigits base.radix (digits ++ List.replicate k 0)) := by
  have hbits : bitsPerDigit base ≤ 4 := by cases base <;> decide
  induction k with
  | zero => simpa using Or.inr h
  | succ k ih =>
    rw [foldDigits_succ]
    rcases ih with ⟨hn, hinf⟩ | hwhole
    · exact .inl ⟨hn, by rw [hinf, infinite_shift]⟩
    · have hshift := whole_shift hbits hwhole
      rw [← radix_eq_two_pow hbase, mul_assoc, ← pow_succ] at hshift
      exact hshift.imp_left fun hinf => ⟨left_ne_zero_of_mul hinf.1, hinf.2⟩

theorem foldDigits_zeros_infinite {base : Base} {digits : List ℕ}
    (h : foldDigits base.radix digits = .infinite false) (k : ℕ) :
    foldDigits base.radix (digits ++ List.replicate k 0) = .infinite false := by
  induction k with
  | zero => simpa using h
  | succ k ih => rw [foldDigits_succ, ih, infinite_shift]

theorem mantissa_padded (l : Literal) (k : ℕ) : (l.padded k).mantissa =
    foldDigits l.base.radix (l.allDigits ++ List.replicate k 0) := by
  rw [mantissa, allDigits_padded]
  rfl

theorem mantissa_padded_cases (hbase : l.base ≠ .decimal) {n : ℕ} (h : Whole n l.mantissa) (k : ℕ) :
    n ≠ 0 ∧ (l.padded k).mantissa = .infinite false ∨
      Whole (n * l.base.radix ^ k) (l.padded k).mantissa := by
  rw [mantissa_padded]
  exact foldDigits_zeros hbase h k

theorem mantissa_padded_infinite (h : l.mantissa = .infinite false) (k : ℕ) :
    (l.padded k).mantissa = .infinite false := by
  rw [mantissa_padded]
  exact foldDigits_zeros_infinite h k

theorem scale_padded (l : Literal) (k : ℕ) :
    (l.padded k).scale = l.scale - bitsPerDigit l.base * k := by
  rw [scale, length_fraction_padded, scale, sub_sub, Nat.cast_add, mul_add]
  rfl

/-- Zeros take from the scale what they add to the digits. -/
theorem shifted_eq (hbase : l.base ≠ .decimal) (n k : ℕ) :
    ((n * l.base.radix ^ k : ℕ) * 2 ^ (l.padded k).scale : ℚ) = n * 2 ^ l.scale := by
  rw [radix_eq_two_pow hbase, scale_padded]
  push_cast
  rw [mul_assoc, ← pow_mul, ← zpow_natCast (2 : ℚ), ← zpow_add₀ two_ne_zero]
  congr 2
  push_cast
  omega

/-- **Zeros leave a float as it is**, if its digits are zero, or if with the zeros a float still
holds them and each half of the scale is still that of a power of two. -/
theorem scaled_padded {t : Text} (h : split t = .ok l) (hbase : l.base ≠ .decimal) {k : ℕ}
    (hk : l.mantissa.isZero = true ∨
      (l.padded k).mantissa.isFinite = true ∧ -2047 < (l.padded k).scale) :
    (l.padded k).scaled = l.scaled := by
  have hdown : (l.padded k).scale ≤ l.scale := by
    rw [scale_padded]
    have : (0 : ℤ) ≤ bitsPerDigit l.base * k := by positivity
    omega
  obtain ⟨n, hn, -⟩ | hinf := mantissa_cases h hbase
  · rw [hn.isZero_eq, decide_eq_true_eq] at hk
    rcases mantissa_padded_cases hbase hn k with ⟨hne, hinf⟩ | hshift
    · rw [hinf] at hk
      exact absurd (hk.resolve_left hne).1 Bool.false_ne_true
    · have hscale : n ≠ 0 → -2047 < (l.padded k).scale := fun hne => (hk.resolve_left hne).2
      have hrounds := rounds_scaled hshift fun hne => hscale (left_ne_zero_of_mul hne)
      rw [shifted_eq hbase] at hrounds
      refine hrounds.unique double_proper (rounds_scaled hn fun hne => ?_)
      exact lt_of_lt_of_le (hscale hne) hdown
  · rw [hinf, mantissa_padded_infinite hinf] at hk
    rcases hk with hk | ⟨hk, -⟩ <;> cases hk

end Literal

/-! ## Values that are zero -/

/-- A value without magnitude. -/
def Value.IsZero : Value → Prop
  | .float _ v => v.isZero = true
  | .decimal d => d.mantissa = 0
  | _ => False

theorem Decimal.Canonical.eq_zero {d : Decimal} (h : d.Canonical) (hd : d.mantissa = 0) :
    d = Decimal.zero := by
  obtain ⟨mantissa, scale, negative⟩ := d
  obtain rfl : mantissa = 0 := hd
  have hscale : scale = 0 := h.shortest.resolve_right fun hne => hne rfl
  have hnegative : negative = false := Bool.not_eq_true _ ▸ fun hneg => h.nonzero hneg rfl
  rw [hscale, hnegative]
  rfl

namespace Literal

open Floating FloatFormat

variable {l : Literal}

theorem decimalOfFloat?_canonical {m : Floating} {negative : Bool} {d : Decimal}
    (h : decimalOfFloat? m negative = some d) : d.Canonical := by
  unfold decimalOfFloat? at h
  exact Decimal.ofDigits?_canonical h

theorem decimalOfFloat?_zero (negative : Bool) :
    decimalOfFloat? (zero .double false) negative = some Decimal.zero := by
  cases negative <;> decide +kernel

theorem convert_zero (f g : FloatFormat) (negative : Bool) :
    convert f (zero g negative) = zero f negative := by
  simp [convert, zero, roundDyadic, Floating.round]

theorem exists_valueOf_zero (l : Literal) :
    ∃ v, l.valueOf (zero .double false) = .ok v ∧ v.IsZero := by
  have hsigned : l.signed (zero .double false) = zero .double l.negative := l.signed_finite 0 _
  by_cases hdecimal : l.suffix = .decimal
  · refine ⟨.decimal Decimal.zero, ?_, rfl⟩
    rw [valueOf_decimal_of_isFinite hdecimal rfl, decimalOfFloat?_zero]
  · by_cases hsingle : l.suffix = .single
    · refine ⟨.float .single (zero .single l.negative), ?_, rfl⟩
      rw [valueOf_single hsingle, hsigned, convert_zero]
      rfl
    · refine ⟨.float .double (zero .double l.negative), ?_, rfl⟩
      rw [valueOf_double hdecimal hsingle, hsigned]
      rfl

/-- **A magnitude with the value zero has the value of zero.** -/
theorem valueOf_zero {m : Floating} (hm : Magnitude .double m) {v : Value} (h : l.valueOf m = .ok v)
    (hv : v.IsZero) : l.valueOf (zero .double false) = .ok v := by
  have hsigned : l.signed (zero .double false) = zero .double l.negative := l.signed_finite 0 _
  cases hm with
  | infinite =>
    obtain ⟨target, herror⟩ := l.valueOf_infinite
    rw [herror] at h
    cases h
  | @finite s e hs he =>
    by_cases hdecimal : l.suffix = .decimal
    · rw [valueOf_decimal_of_isFinite hdecimal rfl] at h
      rw [valueOf_decimal_of_isFinite hdecimal rfl, decimalOfFloat?_zero]
      cases hd : decimalOfFloat? (.finite false s e) l.negative with
      | none =>
        rw [hd] at h
        cases h
      | some d =>
        rw [hd] at h
        obtain rfl := Except.ok.inj h
        rw [(decimalOfFloat?_canonical hd).eq_zero hv]
    · by_cases hsingle : l.suffix = .single
      · rw [valueOf_single hsingle, signed_finite] at h
        rw [valueOf_single hsingle, hsigned, convert_zero]
        split at h
        · cases h
        · obtain rfl := Except.ok.inj h
          have hround : Rounds .single l.negative _ _ := rounds_roundDyadic l.negative s e
          have hzero := hround.eq_zero single_proper hv
          rw [convert, hzero]
          rfl
      · rw [valueOf_double hdecimal hsingle, signed_finite] at h
        rw [valueOf_double hdecimal hsingle, hsigned]
        obtain rfl := Except.ok.inj h
        obtain rfl : s = 0 := of_decide_eq_true hv
        rw [hs.full.resolve_left (Nat.two_pow_pos _).not_ge]
        rfl

/-! ## Values with more zeros -/

theorem holds_scale_padded (h : IntegerType.int32.holds l.scale = true) (k : ℕ) :
    IntegerType.int32.holds (l.padded k).scale = true ↔ -2 ^ 31 ≤ (l.padded k).scale := by
  have hup := (IntegerType.holds_iff.1 h).2
  have hnonneg : (0 : ℤ) ≤ bitsPerDigit l.base * k := by positivity
  rw [IntegerType.holds_iff]
  refine ⟨fun hfits => hfits.1, fun hle => ⟨hle, ?_⟩⟩
  rw [scale_padded]
  omega

/-- **In base two and sixteen**, zeros that leave the float as it is and the scale within its bounds
change no value. -/
theorem value_padded {t : Text} (h : split t = .ok l) (hfloating : l.isFloating = true)
    (hbase : l.base ≠ .decimal) (hheld : IntegerType.int32.holds l.scale = true) {k : ℕ}
    (hle : -2 ^ 31 ≤ (l.padded k).scale)
    (hk : l.mantissa.isZero = true ∨
      (l.padded k).mantissa.isFinite = true ∧ -2047 < (l.padded k).scale) :
    (l.padded k).value = l.value := by
  by_cases hsuffix : l.hasIntegerSuffix
  · have hsuffix' : (l.padded k).hasIntegerSuffix := hsuffix
    rw [value_of_integerSuffix (l.isFloating_padded k) hsuffix',
      value_of_integerSuffix hfloating hsuffix]
  · have hsuffix' : ¬(l.padded k).hasIntegerSuffix := hsuffix
    have hexponent : (l.padded k).exponentValue = l.exponentValue := rfl
    rw [value_eq_valueOf_scaled (l.isFloating_padded k) hbase hsuffix',
      value_eq_valueOf_scaled hfloating hbase hsuffix, (holds_scale_padded hheld k).2 hle, hheld,
      hexponent, scaled_padded h hbase hk]
    rfl

/-- Digits that no float holds have at most the value that is not a number. -/
theorem eq_nan_of_valueOf_scaled (h : l.mantissa = .infinite false) {v : Value}
    (hv : l.valueOf l.scaled = .ok v) : v = .float .single .nan := by
  rw [scaled_infinite h] at hv
  split at hv
  · rw [valueOf_nan] at hv
    split at hv
    · exact (Except.ok.inj hv).symm
    · cases hv
  · obtain ⟨target, herror⟩ := l.valueOf_infinite
    rw [herror] at hv
    cases hv

theorem exists_whole_of_value {t : Text} (h : split t = .ok l) (hfloating : l.isFloating = true)
    (hbase : l.base ≠ .decimal) {v : Value} (hv : l.value = .ok v)
    (hnan : v ≠ .float .single .nan) :
    IntegerType.int64.holds l.exponentValue = true ∧ IntegerType.int32.holds l.scale = true ∧
      ¬l.hasIntegerSuffix ∧ l.valueOf l.scaled = .ok v ∧ ∃ n, Whole n l.mantissa := by
  have hsuffix : ¬l.hasIntegerSuffix := by
    intro hsuffix
    rw [value_of_integerSuffix hfloating hsuffix] at hv
    cases hv
  rw [value_eq_valueOf_scaled hfloating hbase hsuffix] at hv
  split at hv
  · rename_i hheld
    obtain ⟨hexponent, hscale⟩ := Bool.and_eq_true_iff.1 hheld
    refine ⟨hexponent, hscale, hsuffix, hv, ?_⟩
    obtain ⟨n, hn, -⟩ | hinf := mantissa_cases h hbase
    · exact ⟨n, hn⟩
    · exact absurd (eq_nan_of_valueOf_scaled hinf hv) hnan
  · cases hv

theorem value_padded_eq (hbase : l.base ≠ .decimal) (hsuffix : ¬l.hasIntegerSuffix)
    (hexponent : IntegerType.int64.holds l.exponentValue = true) (k : ℕ) : (l.padded k).value =
      if IntegerType.int32.holds (l.padded k).scale then l.valueOf (l.padded k).scaled
      else .error (.overflow .double) := by
  have hexponent' : IntegerType.int64.holds (l.padded k).exponentValue = true := hexponent
  rw [value_eq_valueOf_scaled (l.isFloating_padded k) hbase hsuffix, hexponent', Bool.true_and]
  rfl

/-- With a scale too small for two powers of two, only a value that is zero is kept. -/
theorem valueOf_scaled_padded_iff {n : ℕ} (hn : Whole n l.mantissa) {v : Value}
    (hvalue : l.valueOf l.scaled = .ok v) {k : ℕ} (hshift : Whole (n * l.base.radix ^ k)
    (l.padded k).mantissa) (hlow : (l.padded k).scale ≤ -2047) :
    l.valueOf (l.padded k).scaled = .ok v ↔ v.IsZero := by
  rw [scaled_eq_zero hshift hlow]
  constructor
  · intro hpadded
    obtain ⟨v', hv', hzero⟩ := l.exists_valueOf_zero
    rw [hv'] at hpadded
    exact Except.ok.inj hpadded ▸ hzero
  · intro hzero
    obtain ⟨hmagnitude, -⟩ | ⟨-, hinf, -⟩ := l.scaled_cases
    · exact valueOf_zero hmagnitude hvalue hzero
    · have hfinite := hn.isFinite
      rw [mantissa, hinf] at hfinite
      cases hfinite

/-- **In base two and sixteen**, zeros change no value exactly if the scale stays within its bounds
and a float holds the digits with the zeros, unless they are all zero; and if the scale stays great
enough for two powers of two, unless the value is zero anyway. -/
theorem value_padded_iff {t : Text} (h : split t = .ok l) (hfloating : l.isFloating = true)
    (hbase : l.base ≠ .decimal) {v : Value} (hv : l.value = .ok v) (hnan : v ≠ .float .single .nan)
    (k : ℕ) : (l.padded k).value = .ok v ↔ -2 ^ 31 ≤ (l.padded k).scale ∧
      (l.mantissa.isZero = true ∨ (l.padded k).mantissa.isFinite = true ∧
        (v.IsZero ∨ -2047 < (l.padded k).scale)) := by
  obtain ⟨hexponent, hheld, hsuffix, hvalue, n, hn⟩ :=
    exists_whole_of_value h hfloating hbase hv hnan
  have hread := value_padded_eq hbase hsuffix hexponent k
  have hholds := holds_scale_padded hheld k
  constructor
  · intro hpadded
    rw [hread] at hpadded
    split at hpadded
    · rename_i hscale
      refine ⟨hholds.1 hscale, .inr ?_⟩
      rcases mantissa_padded_cases hbase hn k with ⟨-, hinf⟩ | hshift
      · exact absurd (eq_nan_of_valueOf_scaled hinf hpadded) hnan
      · refine ⟨hshift.isFinite, ?_⟩
        rcases Int.lt_or_le (-2047) (l.padded k).scale with hlt | hlow
        · exact .inr hlt
        · exact .inl ((valueOf_scaled_padded_iff hn hvalue hshift hlow).1 hpadded)
    · cases hpadded
  · rintro ⟨hle, hk⟩
    by_cases hkeeps : l.mantissa.isZero = true ∨
        (l.padded k).mantissa.isFinite = true ∧ -2047 < (l.padded k).scale
    · rw [value_padded h hfloating hbase hheld hle hkeeps, hv]
    · obtain ⟨hne, hlow⟩ := not_or.1 hkeeps
      obtain ⟨hfinite, hzero⟩ := hk.resolve_left hne
      have hlow := fun hlt => hlow ⟨hfinite, hlt⟩
      rcases mantissa_padded_cases hbase hn k with ⟨-, hinf⟩ | hshift
      · rw [hinf] at hfinite
        cases hfinite
      · rw [hread, hholds.2 hle, if_pos rfl]
        exact (valueOf_scaled_padded_iff hn hvalue hshift (Int.not_lt.1 hlow)).2
          (hzero.resolve_right hlow)

end Literal

/-- **Zeros behind a fraction.** In base ten they never change what a number is read as. In base two
and sixteen they do not either as long as a float holds the digits with the zeros and the power of
two that makes up for them; a number that has a value keeps it exactly then, or if it is zero. -/
theorem readNumber_padded {u ds w : Text} {l : Literal} (hu : '.' ∉ u)
    (h : Literal.split (u ++ '.' :: (ds ++ w)) = .ok l) (hds : l.fraction = some ds) (k : ℕ) :
    (l.base = .decimal → readNumber (u ++ '.' :: (ds ++ List.replicate k '0' ++ w)) =
      readNumber (u ++ '.' :: (ds ++ w))) ∧
    (l.base ≠ .decimal → -2 ^ 31 ≤ (l.padded k).scale → l.scale < 2 ^ 31 →
      l.mantissa.isZero = true ∨
        (l.padded k).mantissa.isFinite = true ∧ -2047 < (l.padded k).scale →
      readNumber (u ++ '.' :: (ds ++ List.replicate k '0' ++ w)) =
        readNumber (u ++ '.' :: (ds ++ w))) ∧
    (l.base ≠ .decimal → ∀ v, readNumber (u ++ '.' :: (ds ++ w)) = .ok v →
      v ≠ .float .single .nan →
      (readNumber (u ++ '.' :: (ds ++ List.replicate k '0' ++ w)) = .ok v ↔
        -2 ^ 31 ≤ (l.padded k).scale ∧
        (l.mantissa.isZero = true ∨ (l.padded k).mantissa.isFinite = true ∧
          (v.IsZero ∨ -2047 < (l.padded k).scale)))) := by
  have hfloating : l.isFloating = true := by
    rw [Literal.isFloating, hds]
    rfl
  rw [readNumber_of_split h, readNumber_of_split (Literal.split_padded hu h hds k)]
  refine ⟨fun hbase => Literal.value_padded_decimal hbase hfloating k,
    fun hbase hlow hhigh hk => ?_,
    fun hbase v hv hnan => Literal.value_padded_iff h hfloating hbase hv hnan k⟩
  refine Literal.value_padded h hfloating hbase (IntegerType.holds_iff.2 ⟨?_, ?_⟩) hlow hk
  · have hnonneg : (0 : ℤ) ≤ Literal.bitsPerDigit l.base * k := by positivity
    rw [Literal.scale_padded] at hlow
    show -2 ^ 31 ≤ l.scale
    omega
  · show l.scale ≤ 2 ^ 31 - 1
    omega

/-- Three eighths in base sixteen, with three zeros, and a fifth in base ten, with three hundred. -/
theorem readNumber_padded_eighths :
    readNumber "0x1.8000p-2".toList = readNumber "0x1.8p-2".toList ∧
    readNumber "0x1.8000p-2".toList = .ok (.float .double (.finite false (3 * 2 ^ 51) (-54))) ∧
    readNumber ('0' :: '.' :: (['2'] ++ List.replicate 300 '0' ++ ['m'])) =
      readNumber "0.2m".toList := by
  let l : Literal := ⟨false, .hexadecimal, ['1'], some ['8'], some ⟨some '-', ['2']⟩, .none⟩
  let l' : Literal := ⟨false, .decimal, ['0'], some ['2'], none, .decimal⟩
  have hsplit : Literal.split (['0', 'x', '1'] ++ '.' :: (['8'] ++ ['p', '-', '2'])) = .ok l := by
    decide +kernel
  have hsplit' : Literal.split (['0'] ++ '.' :: (['2'] ++ ['m'])) = .ok l' := by decide +kernel
  have hfinite : (l.padded 3).mantissa.isFinite = true := by decide +kernel
  have hlow : -2047 < (l.padded 3).scale := by decide +kernel
  have hvalue : readNumber (['0', 'x', '1'] ++ '.' :: (['8'] ++ ['p', '-', '2'])) =
      .ok (.float .double (.finite false (3 * 2 ^ 51) (-54))) := by decide +kernel
  obtain ⟨-, hsame, hiff⟩ := readNumber_padded (by decide) hsplit rfl 3
  obtain ⟨hten, -, -⟩ := readNumber_padded (by decide) hsplit' rfl 300
  exact ⟨hsame (by decide) (by omega) (by decide +kernel) (.inr ⟨hfinite, hlow⟩),
    (hiff (by decide) _ hvalue (by decide)).2 ⟨by omega, .inr ⟨hfinite, .inr hlow⟩⟩, hten rfl⟩

/-- One, and one with 257 zeros behind the point in base sixteen. -/
theorem not_forall_padded :
    ¬∀ (u ds w : Text) (l : Literal) (k : ℕ), '.' ∉ u →
      Literal.split (u ++ '.' :: (ds ++ w)) = .ok l → l.fraction = some ds →
      readNumber (u ++ '.' :: (ds ++ List.replicate k '0' ++ w)) =
        readNumber (u ++ '.' :: (ds ++ w)) := by
  intro h
  let l : Literal := ⟨false, .hexadecimal, ['1'], some ['0'], none, .none⟩
  have hsplit : Literal.split (['0', 'x', '1'] ++ '.' :: (['0'] ++ [])) = .ok l := by decide +kernel
  have hvalue : l.value = .ok (.float .double (.finite false (2 ^ 52) (-52))) := by decide +kernel
  have hzeros := h _ _ _ l 256 (by decide) hsplit rfl
  rw [readNumber_of_split (Literal.split_padded (by decide) hsplit rfl 256),
    readNumber_of_split hsplit, hvalue,
    Literal.value_padded_iff hsplit rfl (by decide) hvalue (by decide)] at hzeros
  have hdigits : ∀ d ∈ (l.padded 256).allDigits, d < 16 := by decide +kernel
  have hgreat : 2 ^ 1024 ≤ valueOfDigits 16 (l.padded 256).allDigits := by decide +kernel
  have hinf : (l.padded 256).mantissa = .infinite false :=
    (Literal.foldDigits_accurate (show Base.hexadecimal ≠ .decimal by decide) hdigits).eq_infinite
      hgreat
  have hone : l.mantissa.isZero = false := by decide +kernel
  rw [hinf, hone] at hzeros
  rcases hzeros.2 with hzero | ⟨hfinite, -⟩
  · cases hzero
  · cases hfinite

end LesTokens
