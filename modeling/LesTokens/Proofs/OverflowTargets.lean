/-
The type that a number is said to be too great for. A number asks for a type by its form, its suffix
and its sign (`Literal.askedTarget`), and what does not fit the type that is asked for is reported
for it. But some parts of a number are checked before its suffix is looked at, and each of these
checks names a type of its own (`Literal.earlyTarget?`): digits of more than 128 bits, a negative
integer beyond 127 bits, an exponent beyond 64 bits, and in base two and sixteen a scale beyond 32.

**`readNumber_overflow`**: a number is too great for the type it asks for, unless one of those checks
fails first.
-/
import LesTokens.Proofs.SmallNumbers

namespace LesTokens

namespace Literal

/-! ## Taken apart -/

theorem splitExponent_error {base : Base} {t : Text} {e : NumberError}
    (h : splitExponent base t = .error e) : e.isAboutValue = false := by
  unfold splitExponent at h
  split at h
  · split at h
    · dsimp only at h
      split at h <;> cases h
      rfl
    · cases h
  · cases h

theorem checkDigits_error {base : Base} {digits : Text} {e : NumberError}
    (h : checkDigits base digits = .error e) : e.isAboutValue = false := by
  unfold checkDigits at h
  split at h
  · cases h
    rfl
  · split at h <;> cases h
    rfl

theorem error_of_bind {α β : Type} {x : Except NumberError α} {f : α → Except NumberError β}
    {e : NumberError} (h : x >>= f = .error e) : x = .error e ∨ ∃ a, f a = .error e := by
  cases x with
  | error e' =>
    obtain rfl : e' = e := Except.error.inj h
    exact .inl rfl
  | ok a => exact .inr ⟨a, h⟩

theorem split_error {t : Text} {e : NumberError} (h : split t = .error e) :
    e.isAboutValue = false := by
  unfold split at h
  rcases error_of_bind h with hexponent | ⟨⟨exponent, rest⟩, h⟩
  · exact splitExponent_error hexponent
  dsimp only at h
  cases hsuffix : NumberSuffix.ofText? rest with
  | none =>
    rw [hsuffix] at h
    obtain rfl := Except.error.inj h
    rfl
  | some suffix =>
    rw [hsuffix] at h
    rcases error_of_bind h with hpure | ⟨suffix, h⟩
    · cases hpure
    rcases error_of_bind h with hdigits | ⟨-, h⟩
    · exact checkDigits_error hdigits
    · cases h

/-! ## The type that is asked for -/

/-- The type that a number asks for by its form, its suffix and its sign; of several, the widest. -/
def askedTarget (l : Literal) : NumberTarget :=
  if l.isFloating then
    match l.suffix with
    | .single => .single
    | .decimal => .decimal
    | _ => .double
  else
    match l.suffix, l.negative with
    | .unsigned, false => .uint32
    | .unsignedLong, false => .uint64
    | .unsigned, true | .unsignedLong, true => .anyUnsigned
    | .long, _ => .int64
    | _, true => .int64
    | _, false => .uint64

/-- The type that is named by a check that comes before the suffix is looked at, if the number fails
one: its digits for an integer, and for other numbers the exponent that is read as 64 bits and the
scale of 32 bits. A float in base ten has neither check. -/
def earlyTarget? (l : Literal) : Option NumberTarget :=
  if l.isFloating then
    if l.base = .decimal then
      if l.suffix = .decimal ∧ ¬IntegerType.int64.Fits l.exponentValue then some .double else none
    else if IntegerType.int64.Fits l.exponentValue ∧ IntegerType.int32.Fits l.scale then none
    else some .double
  else if 2 ^ 128 ≤ l.magnitude then some .uint64
  else if l.negative ∧ 2 ^ 127 ≤ l.magnitude then some .int64
  else none

/-- What comes of a number: what fails early is too great for the type of its check, and what is too
great later is too great for the type that is asked for. -/
structure Targets (l : Literal) (x : Except NumberError Value) : Prop where
  early : ∀ target, l.earlyTarget? = some target → x = .error (.overflow target)
  asked : l.earlyTarget? = none → ∀ target, x = .error (.overflow target) → target = l.askedTarget

variable {l : Literal}

theorem Targets.of_early {x : Except NumberError Value} {target : NumberTarget}
    (h : l.earlyTarget? = some target) (hx : x = .error (.overflow target)) : l.Targets x := by
  constructor
  case early =>
    intro target' h'
    rw [h, Option.some.injEq] at h'
    rw [hx, h']
  case asked => simp [h]

theorem Targets.of_asked {x : Except NumberError Value} (h : l.earlyTarget? = none)
    (hx : ∀ target, x = .error (.overflow target) → target = l.askedTarget) : l.Targets x := by
  constructor
  case early => simp [h]
  case asked => exact fun _ => hx

/-! ## Integers -/

theorem askedTarget_integer (h : l.isFloating = false) :
    l.askedTarget = (integerTypes l.negative l.suffix).2 := by
  have hsuffix : l.suffix.isFloating = false := by simp_all [isFloating]
  rw [askedTarget, h]
  cases hs : l.suffix with
  | single | double | decimal => simp [hs, NumberSuffix.isFloating] at hsuffix
  | none | unsigned | long | unsignedLong => cases l.negative <;> rfl

theorem targets_integerValue (h : l.isFloating = false) : l.Targets l.integerValue := by
  have hmax : maxMagnitude false = 2 ^ 128 - 1 ∧ maxMagnitude true = 2 ^ 127 - 1 := by decide
  have hearly : l.earlyTarget? = if 2 ^ 128 ≤ l.magnitude then some .uint64
      else if l.negative ∧ 2 ^ 127 ≤ l.magnitude then some .int64 else none := by
    rw [earlyTarget?, h]
    rfl
  unfold integerValue
  by_cases hwide : 2 ^ 128 ≤ l.magnitude
  · rw [if_pos hwide] at hearly
    exact .of_early hearly (if_pos (by omega))
  rw [if_neg hwide] at hearly
  rw [if_neg (by omega)]
  by_cases hnegative : l.negative = true ∧ 2 ^ 127 ≤ l.magnitude
  · rw [if_pos hnegative] at hearly
    exact .of_early hearly (if_pos (by rw [hnegative.1]; omega))
  · rw [if_neg hnegative] at hearly
    have hle : ¬maxMagnitude l.negative < l.magnitude := by
      cases hsign : l.negative with
      | false => omega
      | true =>
        have hlt : ¬2 ^ 127 ≤ l.magnitude := fun hge => hnegative ⟨hsign, hge⟩
        omega
    rw [if_neg hle]
    refine .of_asked hearly fun target hx => ?_
    rw [askedTarget_integer h]
    dsimp only at hx
    split at hx <;> cases hx
    rfl

/-! ## Floats and decimals -/

theorem askedTarget_valueOf (h : l.isFloating = true) {m : Floating} {target : NumberTarget}
    (hm : l.valueOf m = .error (.overflow target)) : target = l.askedTarget := by
  rw [askedTarget, if_pos h]
  by_cases hdecimal : l.suffix = .decimal
  · rw [valueOf_decimal hdecimal] at hm
    rw [hdecimal]
    split at hm <;> cases hm
    rfl
  by_cases hsingle : l.suffix = .single
  · rw [valueOf_single hsingle] at hm
    rw [hsingle]
    split at hm <;> cases hm
    rfl
  · rw [valueOf_double hdecimal hsingle] at hm
    split at hm <;> cases hm
    cases hs : l.suffix <;> simp_all

/-- In base two and sixteen the exponent and the scale are checked for every suffix. -/
theorem targets_radix (h : l.isFloating = true) (hbase : l.base ≠ .decimal)
    (hsuffix : ¬l.hasIntegerSuffix) : l.Targets l.value := by
  have hearly : l.earlyTarget? =
      if IntegerType.int64.Fits l.exponentValue ∧ IntegerType.int32.Fits l.scale then none
      else some .double := by
    rw [earlyTarget?, if_pos h, if_neg hbase]
  have hvalue := value_eq_valueOf_scaled h hbase hsuffix
  simp only [Bool.and_eq_true, IntegerType.holds_iff] at hvalue
  by_cases hfits : IntegerType.int64.Fits l.exponentValue ∧ IntegerType.int32.Fits l.scale
  · rw [if_pos hfits] at hearly hvalue
    rw [hvalue]
    exact .of_asked hearly fun target => askedTarget_valueOf h
  · rw [if_neg hfits] at hearly hvalue
    exact .of_early hearly hvalue

/-- In base ten the exponent of a decimal is read as 64 bits before it is tried as one of 32. -/
theorem targets_decimalValue (h : l.isFloating = true) (hbase : l.base = .decimal)
    (hs : l.suffix = .decimal) : l.Targets l.decimalValue := by
  have hearly : l.earlyTarget? =
      if IntegerType.int64.Fits l.exponentValue then none else some .double := by
    simp [earlyTarget?, h, hbase, hs]
  have hvalue := decimalValue_eq hbase
  simp only [IntegerType.holds_iff] at hvalue
  by_cases hfits : IntegerType.int64.Fits l.exponentValue
  · rw [if_pos hfits] at hearly hvalue
    refine .of_asked hearly fun target hx => ?_
    rw [hvalue] at hx
    rw [askedTarget, if_pos h, hs]
    split at hx <;> cases hx
    rfl
  · rw [if_neg hfits] at hearly hvalue
    exact .of_early hearly hvalue

theorem targets_floatValue (h : l.isFloating = true) (hbase : l.base = .decimal)
    (hs : l.suffix ≠ .decimal) : l.Targets l.floatValue := by
  refine .of_asked (by simp [earlyTarget?, h, hbase, hs]) fun target hx => ?_
  rw [floatValue_decimal hbase hs] at hx
  exact askedTarget_valueOf h hx

/-- **A number is too great for the type that it asks for**, or for that of the check it fails
first. -/
theorem targets_value (h : l.isFloating = true → ¬l.hasIntegerSuffix) : l.Targets l.value := by
  cases hfloating : l.isFloating with
  | false =>
    have hvalue : l.value = l.integerValue := by rw [value, hfloating]; rfl
    exact hvalue ▸ targets_integerValue hfloating
  | true =>
    have hsuffix := h hfloating
    by_cases hbase : l.base = .decimal
    · rw [value_eq hfloating hsuffix]
      split
      · rename_i hs
        exact targets_decimalValue hfloating hbase hs
      · rename_i hs
        exact targets_floatValue hfloating hbase hs
    · exact targets_radix hfloating hbase hsuffix

/-- What is refused as too great is taken apart as a number, and names the type of the check that it
fails first or the one that it asks for. -/
theorem target_of_readNumber {t : Text} {target : NumberTarget}
    (h : readNumber t = .error (.overflow target)) :
    ∃ l, split t = .ok l ∧ target = l.earlyTarget?.getD l.askedTarget := by
  cases hsplit : split t with
  | error e =>
    have habout := split_error hsplit
    rw [readNumber, hsplit] at h
    cases h
    cases habout
  | ok l =>
    rw [readNumber_of_split hsplit] at h
    refine ⟨l, rfl, ?_⟩
    have hsuffix : l.isFloating = true → ¬l.hasIntegerSuffix := by
      intro hfloating hinteger
      rw [value_of_integerSuffix hfloating hinteger] at h
      cases h
    have htargets := targets_value hsuffix
    cases hearly : l.earlyTarget? with
    | none => exact htargets.asked hearly target h
    | some early =>
      have hvalue := htargets.early early hearly
      rw [h] at hvalue
      cases hvalue
      rfl

end Literal

/-- **What a number is said to be too great for.** A text that is refused as too great is taken apart
as a number, and the type that is named is the one its form, its suffix and its sign ask for, unless
the number fails a check that comes before; and a number that fails such a check is refused for the
type of that check, whatever its suffix asks for. -/
theorem readNumber_overflow (t : Text) :
    (∀ target, readNumber t = .error (.overflow target) →
      ∃ l, Literal.split t = .ok l ∧ target = l.earlyTarget?.getD l.askedTarget) ∧
    ∀ l target, Literal.split t = .ok l → (l.isFloating = true → ¬l.hasIntegerSuffix) →
      l.earlyTarget? = some target → readNumber t = .error (.overflow target) := by
  constructor
  · exact fun target => Literal.target_of_readNumber
  · intro l target hsplit hsuffix hearly
    rw [readNumber_of_split hsplit]
    exact (Literal.targets_value hsuffix).early target hearly

/-- An unsigned integer of 40 bits, and a decimal with an exponent of more than 64. -/
theorem readNumber_overflow_early :
    (∃ l, Literal.split "0xFF_0000_0000U".toList = .ok l ∧
      NumberTarget.uint32 = l.earlyTarget?.getD l.askedTarget) ∧
    readNumber "1e9223372036854775808m".toList = .error (.overflow .double) := by
  constructor
  · exact (readNumber_overflow _).1 .uint32 (by decide +kernel)
  · let l : Literal :=
      ⟨false, .decimal, ['1'], none, some ⟨none, "9223372036854775808".toList⟩, .decimal⟩
    have hsplit : Literal.split "1e9223372036854775808m".toList = .ok l := by decide +kernel
    exact (readNumber_overflow _).2 l .double hsplit (by simp [Literal.hasIntegerSuffix, l])
      (by decide +kernel)

/-- A decimal whose exponent has more than 64 bits. -/
theorem not_forall_asked :
    ¬∀ (t : Text) (l : Literal) (target : NumberTarget), Literal.split t = .ok l →
      readNumber t = .error (.overflow target) → target = l.askedTarget := by
  intro h
  let l : Literal :=
    ⟨false, .decimal, ['1'], none, some ⟨none, "9223372036854775808".toList⟩, .decimal⟩
  have hsplit : Literal.split "1e9223372036854775808m".toList = .ok l := by decide +kernel
  have hread : readNumber "1e9223372036854775808m".toList = .error (.overflow .double) := by
    decide +kernel
  have htarget := h _ l .double hsplit hread
  cases htarget

end LesTokens
