/-
Decimals and the digits they are read from. A decimal is kept in one form (`Decimal.Canonical`):
what either constructor gives has that form, and has it still after it is put into that form again
(`Decimal.normalized_eq_self`). So a decimal is its magnitude, its scale and its sign, and each
way to it gives the same one.

**`Decimal.ofDigits?_eq`**: digits that fit are all kept, and none is rounded away.
-/
import LesTokens.Decimal

namespace LesTokens

/-! ## Runs of digits -/

theorem digitValue?_of_isDigit {c : Char} (h : c.isDigit = true) :
    digitValue? c = some (c.toNat - '0'.toNat) := by
  have hc : '0' ≤ c ∧ c ≤ '9' := by
    simpa [Char.isDigit, Char.le_def] using h
  rw [digitValue?, if_pos hc]

theorem digitValues_eq {run : Text} (h : ∀ c ∈ run, c.isDigit = true) :
    digitValues run = run.map fun c => c.toNat - '0'.toNat := by
  induction run with
  | nil => rfl
  | cons c run ih =>
    have hc := digitValue?_of_isDigit (h c List.mem_cons_self)
    have hrun := ih fun d hd => h d (List.mem_cons_of_mem c hd)
    rw [digitValues, List.filterMap_cons_some hc, List.map_cons, ← hrun, digitValues]

theorem valueOfDigits_map (run : Text) :
    valueOfDigits 10 (run.map fun c => c.toNat - '0'.toNat) = Nat.ofDigitChars 10 run 0 := by
  simp only [valueOfDigits, Nat.ofDigitChars, List.foldl_map, Nat.mul_comm]

theorem valueOfDigits_dropWhile (radix : Nat) (digits : List Nat) :
    valueOfDigits radix (digits.dropWhile (· = 0)) = valueOfDigits radix digits := by
  induction digits with
  | nil => rfl
  | cons d digits ih =>
    by_cases hd : d = 0
    · subst hd
      rw [List.dropWhile_cons_of_pos (by decide), ih]
      simp [valueOfDigits]
    · rw [List.dropWhile_cons_of_neg (by simpa using hd)]

namespace Decimal

/-! ## One form for each value -/

/-- The form that decimals are kept in: within bounds, without trailing zeros after the point and
without a negative zero. -/
structure Canonical (d : Decimal) : Prop where
  mantissa : d.mantissa ≤ maxMantissa
  scale : d.scale ≤ maxScale
  shortest : d.scale = 0 ∨ d.mantissa % 10 ≠ 0
  nonzero : d.negative = true → d.mantissa ≠ 0

theorem canonical_zero : Canonical zero := by
  constructor <;> decide

theorem normalized_canonical {mantissa scale : Nat} (hm : mantissa ≤ maxMantissa)
    (hs : scale ≤ maxScale) (negative : Bool) : Canonical (normalized mantissa scale negative) := by
  fun_induction normalized mantissa scale negative with
  | case1 mantissa => constructor <;> simp_all
  | case2 mantissa scale h ih => exact ih (by omega) (by omega)
  | case3 mantissa scale h =>
    constructor
    case mantissa => exact hm
    case scale => exact hs
    case shortest => exact .inr h
    case nonzero =>
      intro _ hzero
      exact h (by rw [show mantissa = 0 from hzero])

/-- **What is in its form stays as it is.** -/
theorem normalized_eq_self {d : Decimal} (h : d.Canonical) :
    normalized d.mantissa d.scale d.negative = d := by
  obtain ⟨mantissa, scale, negative⟩ := d
  cases scale with
  | zero =>
    have hzero : negative = true → mantissa ≠ 0 := h.nonzero
    rw [normalized]
    cases negative with
    | false => rfl
    | true => simpa using hzero rfl
  | succ scale =>
    rw [normalized, if_neg (h.shortest.resolve_left (Nat.succ_ne_zero scale))]

theorem ofParts?_canonical {mantissa scale : Nat} {negative : Bool} {d : Decimal}
    (h : ofParts? mantissa scale negative = some d) : d.Canonical := by
  unfold ofParts? at h
  split at h
  · rename_i hbounds
    obtain rfl := Option.some.inj h
    exact normalized_canonical hbounds.1 hbounds.2 negative
  · cases h

theorem fit?_canonical {digits : List Nat} {scale places : Nat} {negative : Bool} {d : Decimal}
    (h : fit? digits scale negative places = some d) : d.Canonical := by
  induction places with
  | zero => exact ofParts?_canonical h
  | succ places ih =>
    rw [fit?] at h
    cases hk : keeping? digits scale negative (places + 1) with
    | none =>
      rw [hk] at h
      exact ih h
    | some d' =>
      rw [hk] at h
      obtain rfl := Option.some.inj h
      exact ofParts?_canonical hk

theorem ofDigits?_canonical {integer fraction : Text} {exponent : Int} {negative : Bool}
    {d : Decimal} (h : ofDigits? integer fraction exponent negative = some d) : d.Canonical := by
  unfold ofDigits? at h
  dsimp only at h
  split at h
  · exact fit?_canonical h
  · split at h
    · split at h
      · obtain rfl := Option.some.inj h
        exact canonical_zero
      · cases h
    · exact fit?_canonical h

/-- The decimals that the constructors give. -/
inductive Obtained : Decimal → Prop
  | ofParts {mantissa scale : Nat} {negative : Bool} {d : Decimal}
    (h : ofParts? mantissa scale negative = some d) : Obtained d
  | ofDigits {integer fraction : Text} {exponent : Int} {negative : Bool} {d : Decimal}
    (h : ofDigits? integer fraction exponent negative = some d) : Obtained d

theorem canonical_of_obtained {d : Decimal} (h : d.Obtained) : d.Canonical := by
  cases h with
  | ofParts h => exact ofParts?_canonical h
  | ofDigits h => exact ofDigits?_canonical h

/-! ## Reading what fits -/

theorem decimalDigits_eq {t : Text} (h : ∀ c ∈ t, c.isDigit = true) :
    decimalDigits t = t.map fun c => c.toNat - '0'.toNat := by
  rw [decimalDigits, List.filter_eq_self.2 h]

theorem roundedValue_zero (digits : List Nat) :
    roundedValue digits 0 = valueOfDigits 10 digits := by
  simp [roundedValue]

theorem fit?_of_keeping? {digits : List Nat} {scale places : Nat} {negative : Bool} {d : Decimal}
    (h : keeping? digits scale negative places = some d) :
    fit? digits scale negative places = some d := by
  cases places with
  | zero => exact h
  | succ places => rw [fit?, h]; rfl

/-- **Digits that fit are read as they are.** -/
theorem ofDigits?_eq {integer fraction : Text} (hi : ∀ c ∈ integer, c.isDigit = true)
    (hf : ∀ c ∈ fraction, c.isDigit = true)
    (hm : Nat.ofDigitChars 10 (integer ++ fraction) 0 ≤ maxMantissa)
    (hs : fraction.length ≤ maxScale) (negative : Bool) :
    ofDigits? integer fraction 0 negative =
      some (normalized (Nat.ofDigitChars 10 (integer ++ fraction) 0) fraction.length negative) := by
  have hvalue : valueOfDigits 10
      ((decimalDigits integer ++ decimalDigits fraction).dropWhile (· = 0)) =
        Nat.ofDigitChars 10 (integer ++ fraction) 0 := by
    rw [valueOfDigits_dropWhile, decimalDigits_eq hi, decimalDigits_eq hf, ← List.map_append,
      valueOfDigits_map]
  have hplaces : (decimalDigits fraction).length = fraction.length := by
    rw [decimalDigits_eq hf, List.length_map]
  unfold ofDigits?
  dsimp only
  rw [hplaces, Int.sub_zero]
  show fit? _ fraction.length negative (min fraction.length maxScale) = _
  rw [Nat.min_eq_left hs]
  refine fit?_of_keeping? ?_
  rw [keeping?, Nat.sub_self, roundedValue_zero, hvalue, ofParts?, if_pos ⟨hm, hs⟩]

end Decimal

end LesTokens
