/-
Which integers have a value, and of which type. An integer as it is written (`WrittenInteger`) is a
sign, the prefix of a base, digits with separators behind the first one, and a suffix. Taken apart it
is its digits (`WrittenInteger.split_eq`), and they are not taken into a type until the whole number
is there. So what is read depends on the number, its sign and its suffix alone, and the bound that
digits are tried against before any type refuses nothing that a type would hold.

**`readNumber_integer`**: an integer is read exactly if it fits one of the types its form allows, as
the first of them that it fits; and zeros in front of it count for nothing.
-/
import LesTokens.Proofs.DecimalRounding

namespace LesTokens

/-! ## Bounds -/

namespace IntegerType

/-- The least integer of a type. -/
def least : IntegerType → ℤ
  | int32 => -2 ^ 31
  | int64 => -2 ^ 63
  | uint32 | uint64 => 0

/-- The greatest integer of a type. -/
def greatest : IntegerType → ℤ
  | int32 => 2 ^ 31 - 1
  | uint32 => 2 ^ 32 - 1
  | int64 => 2 ^ 63 - 1
  | uint64 => 2 ^ 64 - 1

/-- Whether an integer is between the bounds of a type. -/
def Fits (type : IntegerType) (n : ℤ) : Prop := type.least ≤ n ∧ n ≤ type.greatest

instance (type : IntegerType) (n : ℤ) : Decidable (type.Fits n) :=
  inferInstanceAs (Decidable (_ ∧ _))

theorem holds_iff {type : IntegerType} {n : ℤ} : type.holds n = true ↔ type.Fits n := by
  cases type <;> simp [holds, Fits, least, greatest] <;> omega

theorem Fits.natAbs_lt {type : IntegerType} {n : ℤ} (h : type.Fits n) : n.natAbs < 2 ^ 64 := by
  cases type <;> simp [Fits, least, greatest] at h <;> omega

theorem fits_of_find? {types : List IntegerType} {type : IntegerType} {n : ℤ}
    (h : types.find? (·.holds n) = some type) : type.Fits n := by
  have hholds := List.find?_some h
  exact holds_iff.1 hholds

end IntegerType

/-! ## Integers as they are written -/

theorem isDigit_hexadecimal {base : Base} {c : Char} (h : base.isDigit c = true) :
    Base.isDigit .hexadecimal c = true := by
  cases base with
  | binary => rcases (by simpa [Base.isDigit] using h : c = '0' ∨ c = '1') with rfl | rfl <;> decide
  | decimal =>
    have hc : c.isDigit = true := h
    simp [Base.isDigit, hc]
  | hexadecimal => exact h

/-- The prefixes of a base. -/
def Base.prefixes : Base → List Text
  | binary => [['0', 'b'], ['0', 'B']]
  | decimal => [[]]
  | hexadecimal => [['0', 'x'], ['0', 'X']]

/-- A run of digits, with separators anywhere behind the first one. -/
structure Base.IsRun (base : Base) (run : Text) : Prop where
  first : opensWith base.isDigit run = true
  digits : ∀ c ∈ run, c = '_' ∨ base.isDigit c = true

/-- The ways to write the suffix of an integer. -/
def NumberSuffix.spellings : NumberSuffix → List Text
  | none => [[]]
  | unsigned => [['u'], ['U']]
  | long => [['l'], ['L']]
  | unsignedLong => [['u', 'l'], ['u', 'L'], ['U', 'l'], ['U', 'L'],
      ['l', 'u'], ['l', 'U'], ['L', 'u'], ['L', 'U']]
  | single | double | decimal => []

/-- An integer as it is written. -/
structure WrittenInteger where
  negative : Bool
  base : Base
  basePrefix : Text
  run : Text
  suffix : NumberSuffix
  spelling : Text
  basePrefix_mem : basePrefix ∈ base.prefixes
  isRun : base.IsRun run
  spelling_mem : spelling ∈ suffix.spellings

namespace WrittenInteger

/-- The segments of an integer. -/
def segments (w : WrittenInteger) : Segments :=
  ⟨w.base, w.basePrefix, w.run, none, none, w.spelling⟩

def text (w : WrittenInteger) : Text :=
  (if w.negative then ['-'] else []) ++ (w.basePrefix ++ (w.run ++ w.spelling))

/-- The number that is written. -/
def value (w : WrittenInteger) : ℤ :=
  let magnitude := valueOfDigits w.base.radix (digitValues w.run)
  if w.negative then -magnitude else magnitude

/-- The types that an integer may have, in the order of preference. -/
def types (w : WrittenInteger) : List IntegerType :=
  match w.suffix, w.negative with
  | .none, false => [.int32, .uint32, .int64, .uint64]
  | .none, true => [.int32, .int64]
  | .unsigned, false => [.uint32]
  | .long, _ => [.int64]
  | .unsignedLong, false => [.uint64]
  | _, _ => []

variable (w : WrittenInteger)

theorem text_eq : w.text = w.segments.signed w.negative := by
  have htext : w.segments.text = w.basePrefix ++ (w.run ++ w.spelling) := by
    simp [segments, Segments.text]
  rw [Segments.signed, htext, text]
  cases w.negative <;> rfl

/-! ## Taken apart -/

/-- What is checked of each suffix: it is one that is scanned, it opens with neither a digit nor the
letter of a base prefix, and it is read as the suffix it spells. -/
theorem spelling_spec : w.spelling ∈ suffixes ∧ opensWith w.base.isDigit w.spelling = false ∧
    opensWith isBaseLetter w.spelling = false ∧
    NumberSuffix.ofText? w.spelling = some w.suffix ∧ w.suffix.isFloating = false := by
  have hmem := w.spelling_mem
  have hall : ∀ suffix ∈ [NumberSuffix.none, .unsigned, .long, .unsignedLong],
      ∀ t ∈ suffix.spellings, t ∈ suffixes ∧
        (∀ base ∈ [Base.binary, .decimal, .hexadecimal], opensWith base.isDigit t = false) ∧
        opensWith isBaseLetter t = false ∧ NumberSuffix.ofText? t = some suffix ∧
        suffix.isFloating = false := by
    decide
  have hsuffix : w.suffix ∈ [NumberSuffix.none, .unsigned, .long, .unsignedLong] := by
    cases h : w.suffix with
    | single | double | decimal => simp [h, NumberSuffix.spellings] at hmem
    | none | unsigned | long | unsignedLong => decide
  obtain ⟨hscanned, hdigit, hrest⟩ := hall _ hsuffix _ hmem
  exact ⟨hscanned, hdigit _ (by cases w.base <;> decide), hrest⟩

theorem scanBase_eq :
    scanBase w.segments.text = (w.base, w.basePrefix, w.run ++ w.spelling) := by
  have hprefix := w.basePrefix_mem
  have hrun := w.isRun
  have hspelling := w.spelling_spec.2.2.1
  have htext : w.segments.text = w.basePrefix ++ (w.run ++ w.spelling) := by
    simp [segments, Segments.text]
  rw [htext]
  cases hb : w.base with
  | binary | hexadecimal =>
    rw [hb] at hprefix
    rcases (by simpa [Base.prefixes] using hprefix : w.basePrefix = _ ∨ w.basePrefix = _) with h | h
    · rw [h]; rfl
    · rw [h]; rfl
  | decimal =>
    rw [hb] at hprefix hrun
    have hnil : w.basePrefix = [] := by simpa [Base.prefixes] using hprefix
    rw [hnil, List.nil_append]
    refine scanBase_of_not ?_
    obtain ⟨hfirst, hdigits⟩ := hrun
    rcases hcons : w.run with - | ⟨c, - | ⟨d, ds⟩⟩
    · rw [hcons] at hfirst
      cases hfirst
    · show ((c = '0') && opensWith isBaseLetter w.spelling) = false
      rw [hspelling, Bool.and_false]
    · show ((c = '0') && isBaseLetter d) = false
      have hd : isBaseLetter d = false := by
        rcases hdigits d (by simp [hcons]) with rfl | hd
        · decide
        · exact not_isBaseLetter_of_isDigit hd
      rw [hd, Bool.and_false]

theorem wellFormed : w.segments.WellFormed := by
  obtain ⟨hscanned, hdigit, -⟩ := w.spelling_spec
  constructor
  case base => exact w.scanBase_eq
  case integer =>
    intro c hc
    rcases w.isRun.digits c hc with rfl | hc
    · exact Bool.true_or _
    · exact isRunChar_of_isDigit hc
  case fraction => exact nofun
  case fractionEnds => exact hdigit
  case exponent => exact nofun
  case suffix => exact hscanned

theorem opensNumber_text : opensNumber w.segments.text = true := by
  have hprefix := w.basePrefix_mem
  have hfirst := w.isRun.first
  have htext : w.segments.text = w.basePrefix ++ (w.run ++ w.spelling) := by
    simp [segments, Segments.text]
  rw [htext, opensNumber]
  cases hb : w.base with
  | binary | hexadecimal =>
    rw [hb] at hprefix
    rcases (by simpa [Base.prefixes] using hprefix : w.basePrefix = _ ∨ w.basePrefix = _) with h | h
    · rw [h]; rfl
    · rw [h]; rfl
  | decimal =>
    rw [hb] at hprefix hfirst
    have hnil : w.basePrefix = [] := by simpa [Base.prefixes] using hprefix
    have hdigit : opensWith Char.isDigit w.run = true := hfirst
    rw [hnil, List.nil_append, opensWith_append hdigit, Bool.true_or]

/-- The parts of an integer. -/
def literal : Literal := ⟨w.negative, w.base, w.run, none, none, w.suffix⟩

/-- **An integer is taken apart into what it is written with.** -/
theorem split_eq : Literal.split w.text = .ok w.literal := by
  have hsign := Segments.splitSign_signed w.opensNumber_text w.negative
  rw [text_eq, w.wellFormed.split_eq hsign w.spelling_spec.2.2.2.1, Segments.reading]
  have hdigits : w.segments.digits = w.run := List.append_nil _
  have hany : w.run.any (Base.isDigit .hexadecimal) = true := by
    have hfirst := w.isRun.first
    cases hrun : w.run with
    | nil =>
      rw [hrun] at hfirst
      cases hfirst
    | cons c run =>
      rw [hrun, opensWith_cons] at hfirst
      rw [List.any_cons, isDigit_hexadecimal hfirst, Bool.true_or]
  have hstray : w.segments.strayDigit? = none := by
    unfold Segments.strayDigit?
    rw [hdigits]
    split
    · rename_i hbinary
      have hbase : w.base = .binary := hbinary
      refine List.find?_eq_none.2 fun c hc => ?_
      rcases w.isRun.digits c hc with rfl | hc
      · decide
      · rw [hbase] at hc
        rcases (by simpa [Base.isDigit] using hc : c = '0' ∨ c = '1') with rfl | rfl <;> decide
    · rfl
  rw [hdigits, hany, hstray]
  rfl

/-! ## Read -/

theorem integerTypes_eq : (Literal.integerTypes w.negative w.suffix).1 = w.types := by
  have hsuffix := w.spelling_spec.2.2.2.2
  unfold types
  cases hs : w.suffix with
  | none | unsigned | long | unsignedLong => cases w.negative <;> rfl
  | single | double | decimal => simp [hs, NumberSuffix.isFloating] at hsuffix

theorem readNumber_text : readNumber w.text = w.literal.integerValue := by
  rw [readNumber, w.split_eq]
  exact if_neg (by simp [literal, Literal.isFloating, w.spelling_spec.2.2.2.2])

/-- **An integer is read as the first of its types that holds it.** -/
theorem readNumber_eq_ok_iff (v : Value) : readNumber w.text = .ok v ↔
    ∃ type, w.types.find? (·.holds w.value) = some type ∧ v = .integer type w.value := by
  have hvalue : w.value = if w.literal.negative then -(w.literal.magnitude : ℤ)
      else w.literal.magnitude := rfl
  have habs : w.value.natAbs = w.literal.magnitude := by
    rw [hvalue]
    split <;> omega
  have hsmall (negative : Bool) (h : Literal.maxMagnitude negative < w.literal.magnitude) :
      ¬∃ type, w.types.find? (·.holds w.value) = some type ∧ v = .integer type w.value := by
    rintro ⟨type, hfind, -⟩
    have hlt := (IntegerType.fits_of_find? hfind).natAbs_lt
    have hle : 2 ^ 64 ≤ Literal.maxMagnitude negative := by cases negative <;> decide
    omega
  have htypes : (Literal.integerTypes w.literal.negative w.literal.suffix).1 = w.types :=
    w.integerTypes_eq
  rw [readNumber_text, Literal.integerValue]
  split
  · rename_i h
    refine iff_of_false (fun hok => ?_) (hsmall false h)
    cases hok
  · split
    · rename_i h
      refine iff_of_false (fun hok => ?_) (hsmall _ h)
      cases hok
    · dsimp only
      rw [htypes, ← hvalue]
      cases w.types.find? (·.holds w.value) with
      | none => simp
      | some type => simp [eq_comm]

/-! ## Zeros in front -/

/-- An integer with zeros in front of its digits. -/
def withZeros (w : WrittenInteger) (k : ℕ) : WrittenInteger where
  negative := w.negative
  base := w.base
  basePrefix := w.basePrefix
  run := List.replicate k '0' ++ w.run
  suffix := w.suffix
  spelling := w.spelling
  basePrefix_mem := w.basePrefix_mem
  isRun := by
    have hzero : w.base.isDigit '0' = true := by cases w.base <;> decide
    constructor
    case first =>
      cases k with
      | zero => exact w.isRun.first
      | succ k => exact hzero
    case digits =>
      intro c hc
      rcases List.mem_append.1 hc with hc | hc
      · rw [(List.mem_replicate.1 hc).2]
        exact .inr hzero
      · exact w.isRun.digits c hc
  spelling_mem := w.spelling_mem

theorem magnitude_withZeros (k : ℕ) : (w.withZeros k).literal.magnitude = w.literal.magnitude := by
  have hzeros : digitValues (List.replicate k '0') = List.replicate k 0 := by
    rw [digitValues, List.filterMap_replicate]
    rfl
  show valueOfDigits w.base.radix (digitValues (List.replicate k '0' ++ w.run)) =
    valueOfDigits w.base.radix (digitValues w.run)
  rw [digitValues, List.filterMap_append]
  show valueOfDigits w.base.radix (digitValues (List.replicate k '0') ++ digitValues w.run) = _
  rw [hzeros, valueOfDigits_append, valueOfDigits_replicate_zero, Nat.zero_mul, Nat.zero_add]

theorem readNumber_withZeros (k : ℕ) : readNumber (w.withZeros k).text = readNumber w.text := by
  rw [readNumber_text, readNumber_text, Literal.integerValue, Literal.integerValue,
    w.magnitude_withZeros k]
  rfl

end WrittenInteger

/-- **An integer is read as it is written, at the first type that it fits.** The types are those that
its sign and suffix allow; with none that it fits, and so with a minus sign before an unsigned
integer, it is refused. Zeros in front of its digits change nothing. -/
theorem readNumber_integer (w : WrittenInteger) :
    (∀ v, readNumber w.text = .ok v ↔ ∃ earlier type later, w.types = earlier ++ type :: later ∧
      type.Fits w.value ∧ (∀ t ∈ earlier, ¬t.Fits w.value) ∧ v = .integer type w.value) ∧
    ((∃ v, readNumber w.text = .ok v) ↔ ∃ type ∈ w.types, type.Fits w.value) ∧
    (w.negative = true → w.suffix = .unsigned ∨ w.suffix = .unsignedLong →
      ∃ e, readNumber w.text = .error e) ∧
    ∀ k, readNumber (w.withZeros k).text = readNumber w.text := by
  have hread := w.readNumber_eq_ok_iff
  have hfits (type : IntegerType) : (type.holds w.value = false) ↔ ¬type.Fits w.value := by
    rw [← IntegerType.holds_iff, Bool.not_eq_true]
  refine ⟨fun v => ?_, ?_, fun hnegative hsuffix => ?_, w.readNumber_withZeros⟩
  · rw [hread]
    constructor
    · rintro ⟨type, hfind, rfl⟩
      obtain ⟨hholds, earlier, later, htypes, hearlier⟩ := List.find?_eq_some_iff_append.1 hfind
      refine ⟨earlier, type, later, htypes, IntegerType.holds_iff.1 hholds, fun t ht => ?_, rfl⟩
      exact (hfits t).1 (by simpa using hearlier t ht)
    · rintro ⟨earlier, type, later, htypes, htype, hearlier, rfl⟩
      refine ⟨type, List.find?_eq_some_iff_append.2 ⟨IntegerType.holds_iff.2 htype, earlier, later,
        htypes, fun t ht => ?_⟩, rfl⟩
      rw [(hfits t).2 (hearlier t ht)]
      rfl
  · simp only [hread]
    constructor
    · rintro ⟨v, type, hfind, -⟩
      exact ⟨type, List.mem_of_find?_eq_some hfind, IntegerType.fits_of_find? hfind⟩
    · rintro ⟨type, hmem, htype⟩
      have hsome : (w.types.find? (·.holds w.value)).isSome = true :=
        List.find?_isSome.2 ⟨type, hmem, IntegerType.holds_iff.2 htype⟩
      obtain ⟨found, hfound⟩ := Option.isSome_iff_exists.1 hsome
      exact ⟨_, found, hfound, rfl⟩
  · have htypes : w.types = [] := by
      rcases hsuffix with hsuffix | hsuffix <;> simp [WrittenInteger.types, hsuffix, hnegative]
    cases hv : readNumber w.text with
    | error e => exact ⟨e, rfl⟩
    | ok v =>
      obtain ⟨type, hfind, -⟩ := (hread v).1 hv
      rw [htypes] at hfind
      cases hfind

/-- The least integer of 64 bits in base sixteen, with separators and zeros. -/
theorem readNumber_integer_least : ∃ w : WrittenInteger,
    w.text = "-0x8000_0000_0000_0000_".toList ∧ w.types = [.int32, .int64] ∧
      IntegerType.int64.Fits w.value ∧ ¬IntegerType.int32.Fits w.value ∧
      readNumber w.text = .ok (.integer .int64 (-2 ^ 63)) ∧
      readNumber (w.withZeros 5).text = .ok (.integer .int64 (-2 ^ 63)) := by
  let w : WrittenInteger := ⟨true, .hexadecimal, ['0', 'x'], "8000_0000_0000_0000_".toList, .none,
    [], by decide, ⟨by decide +kernel, by simp [Base.isDigit]⟩, by decide⟩
  have hmagnitude : valueOfDigits 16 (digitValues "8000_0000_0000_0000_".toList) = 2 ^ 63 := by
    decide +kernel
  have hvalue : w.value = -2 ^ 63 := by
    show -((valueOfDigits 16 (digitValues "8000_0000_0000_0000_".toList) : ℕ) : ℤ) = _
    rw [hmagnitude]
    norm_num
  have hfits : IntegerType.int64.Fits w.value := by
    rw [hvalue]
    decide
  have hnot : ¬IntegerType.int32.Fits w.value := by
    rw [hvalue]
    decide
  obtain ⟨hread, -, -, hzeros⟩ := readNumber_integer w
  have hleast : readNumber w.text = .ok (.integer .int64 (-2 ^ 63)) := by
    refine (hread _).2 ⟨[.int32], .int64, [], rfl, hfits, fun t ht => ?_, by rw [hvalue]⟩
    obtain rfl := List.mem_singleton.1 ht
    exact hnot
  exact ⟨w, by decide +kernel, rfl, hfits, hnot, hleast, by rw [hzeros, hleast]⟩

end LesTokens
