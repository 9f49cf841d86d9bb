/-
Numbers as they are shown, and read back. An integer is shown by its digits and the suffix of its
type, a decimal by its digits with a point among them; that is a number in base ten without
separators and without an exponent (`Segments.Shown`), which is scanned as one lexeme and taken
apart into the same parts. The least integers of a type are read as well, because the sign is taken
before the type is chosen, and no digit of a decimal is rounded away, because there are never more
of them than fit.

**`Text.tokenize_render`**: each integer and each decimal that can be made is shown as the text of
one number with the same value.
-/
import LesTokens.Proofs.DecimalDigits
import LesTokens.Proofs.NumberParts

namespace LesTokens

/-! ## Numbers as they are shown -/

/-- The suffixes that integers and decimals are shown with. -/
def shownSuffixes : List Text := [[], ['u'], ['L'], ['u', 'L'], ['m']]

theorem digitRun_digits {u r : Text} (hu : ∀ c ∈ u, c.isDigit = true)
    (hr : opensDigitRun .decimal r = false) : digitRun .decimal (u ++ r) = (u, r) := by
  induction u with
  | nil => rw [digitRun_eq_spanBy, List.nil_append, Text.spanBy_stop hr]
  | cons c u ih =>
    have hc : Base.isDigit .decimal c = true := hu c List.mem_cons_self
    rw [List.cons_append, digitRun, if_pos (by simp [hc]),
      ih fun d hd => hu d (List.mem_cons_of_mem c hd)]

theorem not_isBaseLetter_of_isDigit {c : Char} (h : c.isDigit = true) : isBaseLetter c = false := by
  rw [Bool.eq_false_iff]
  intro hc
  have hcases : (c = 'x' ∨ c = 'X') ∨ c = 'b' ∨ c = 'B' := by simpa [isBaseLetter] using hc
  rcases hcases with (rfl | rfl) | rfl | rfl <;> exact absurd h (by decide)

namespace Segments

/-- A number in base ten without separators and without an exponent. -/
structure Shown (n : Segments) : Prop where
  base : n.base = .decimal
  basePrefix : n.basePrefix = []
  integer : n.integer ≠ []
  integerDigits : ∀ c ∈ n.integer, c.isDigit = true
  fraction : ∀ ds, n.fraction = some ds → ds ≠ []
  fractionDigits : ∀ ds, n.fraction = some ds → ∀ c ∈ ds, c.isDigit = true
  exponent : n.exponent = none
  suffix : n.suffix ∈ shownSuffixes

namespace Shown

variable {n : Segments}

theorem opensWith_afterInteger (h : n.Shown) {p : Char → Bool} (hp : p '.' = false)
    (hs : ∀ s ∈ shownSuffixes, opensWith p s = false) : opensWith p n.afterInteger = false := by
  unfold afterInteger afterFraction
  cases hf : n.fraction with
  | none =>
    rw [h.exponent]
    exact hs n.suffix h.suffix
  | some ds => exact hp

theorem text_eq_afterInteger (h : n.Shown) : n.text = n.integer ++ n.afterInteger := by
  simp [text, afterInteger, afterFraction, h.basePrefix]

theorem opensNumber (h : n.Shown) : opensNumber n.text = true := by
  obtain ⟨c, integer, hcons⟩ := List.exists_cons_of_ne_nil h.integer
  have hc : c.isDigit = true := h.integerDigits c (by simp [hcons])
  rw [h.text_eq_afterInteger, hcons, List.cons_append, LesTokens.opensNumber, opensWith_cons, hc,
    Bool.true_or]

theorem scanBase_eq (h : n.Shown) :
    scanBase n.text = (n.base, n.basePrefix, n.integer ++ n.afterInteger) := by
  have hletter : opensPair (· = '0') isBaseLetter (n.integer ++ n.afterInteger) = false := by
    have hstop := h.opensWith_afterInteger (p := isBaseLetter) rfl (by decide)
    rcases hinteger : n.integer with - | ⟨c, - | ⟨d, ds⟩⟩
    · exact opensPair_of_not_opensWith (h.opensWith_afterInteger rfl (by decide))
    · show ((c = '0') && opensWith isBaseLetter n.afterInteger) = false
      rw [hstop, Bool.and_false]
    · have hd : d.isDigit = true := h.integerDigits d (by simp [hinteger])
      show ((c = '0') && isBaseLetter d) = false
      rw [not_isBaseLetter_of_isDigit hd, Bool.and_false]
  rw [h.text_eq_afterInteger, scanBase_of_not hletter, h.base, h.basePrefix]

theorem integerRun_eq (h : n.Shown) :
    integerRun .decimal (n.integer ++ n.afterInteger) = (n.integer, n.afterInteger) := by
  have hpair : opensPair (· = '_') (Base.isDigit .decimal) n.afterInteger = false :=
    opensPair_of_not_opensWith (h.opensWith_afterInteger rfl (by decide))
  have hstop : opensDigitRun .decimal n.afterInteger = false := by
    rw [opensDigitRun, hpair, h.opensWith_afterInteger rfl (by decide)]
    rfl
  unfold integerRun
  rw [digitRun_digits h.integerDigits hstop]
  rfl

theorem fractionRun_eq (h : n.Shown) :
    fractionRun .decimal n.afterInteger = (n.fraction, n.suffix) := by
  have hsuffix : ∀ s ∈ shownSuffixes, fractionRun .decimal s = (none, s) ∧
      opensDigitRun .decimal s = false := by decide
  have hnonempty := h.fraction
  have hdigits := h.fractionDigits
  unfold afterInteger afterFraction
  rw [h.exponent]
  cases hf : n.fraction with
  | none => exact (hsuffix n.suffix h.suffix).1
  | some ds =>
    obtain ⟨d, ds', rfl⟩ := List.exists_cons_of_ne_nil (hnonempty ds hf)
    have hd : Base.isDigit .decimal d = true := hdigits _ hf d List.mem_cons_self
    show fractionRun .decimal ('.' :: (d :: ds' ++ n.suffix)) = _
    rw [fractionRun, List.cons_append, opensWith_cons, if_pos hd, ← List.cons_append,
      digitRun_digits (hdigits _ hf) (hsuffix n.suffix h.suffix).2]

/-- **A number that is shown is scanned as it is.** -/
theorem scan_eq (h : n.Shown) : scan n.text = (n, []) := by
  have hsuffix : ∀ s ∈ shownSuffixes, exponentRun .decimal s = (none, s) ∧
      suffixRun s = (s, []) := by decide
  obtain ⟨hexponent, hrun⟩ := hsuffix n.suffix h.suffix
  simp only [scan, h.scanBase_eq, h.base, h.integerRun_eq, h.fractionRun_eq, hexponent, hrun]
  rw [← h.base, ← h.exponent]

theorem proper (h : n.Shown) (negative : Bool) : (Form.number n negative).Proper :=
  ⟨h.opensNumber, h.scan_eq⟩

theorem split_eq (h : n.Shown) (negative : Bool) {suffix : NumberSuffix}
    (hs : NumberSuffix.ofText? n.suffix = some suffix) : Literal.split (n.signed negative) =
      .ok ⟨negative, .decimal, n.integer, n.fraction, none, suffix⟩ := by
  have hdigits : n.digits.any (Base.isDigit .hexadecimal) = true := by
    obtain ⟨c, hc⟩ := List.exists_mem_of_ne_nil n.integer h.integer
    have hdigit := h.integerDigits c hc
    exact List.any_eq_true.2 ⟨c, List.mem_append_left _ hc, by simp [Base.isDigit, hdigit]⟩
  have hstray : n.strayDigit? = none := if_neg (by simp [h.base])
  rw [(wellFormed_of_scan h.scan_eq).split_eq (splitSign_signed h.opensNumber negative) hs, reading,
    h.exponent, hdigits, hstray, h.base]
  rfl

/-! ## One token -/

/-- **A number that is shown is one token**, with the value that is read from it. -/
theorem tokenize_signed (h : n.Shown) {negative : Bool} {v : Value}
    (hneg : negative = true → n.isUnsigned = false) (hv : readNumber (n.signed negative) = .ok v) :
    (n.signed negative).tokenize =
      ⟨[⟨.number, ⟨0, Text.size (n.signed negative)⟩, v⟩], []⟩ :=
  Form.tokenize_number (h.proper negative) hneg hv

end Shown

end Segments

/-! ## Integers -/

/-- What the suffix of an integer type asks for. -/
def IntegerType.numberSuffix : IntegerType → NumberSuffix
  | int32 => .none
  | uint32 => .unsigned
  | int64 => .long
  | uint64 => .unsignedLong

/-- The segments that an integer is shown as, apart from its sign. -/
def IntegerType.segments (type : IntegerType) (magnitude : Nat) : Segments :=
  ⟨.decimal, [], Nat.toDigits 10 magnitude, none, none, type.suffix.toList⟩

theorem IntegerType.segments_shown (type : IntegerType) (magnitude : Nat) :
    (type.segments magnitude).Shown := by
  constructor
  case base => rfl
  case basePrefix => rfl
  case integer => exact Nat.toDigits_ne_nil
  case integerDigits => exact fun c hc => Nat.isDigit_of_mem_toDigits (by decide) (by decide) hc
  case fraction => simp [segments]
  case fractionDigits => simp [segments]
  case exponent => rfl
  case suffix =>
    show type.suffix.toList ∈ shownSuffixes
    cases type <;> decide

theorem Value.render_integer (type : IntegerType) (n : Int) :
    (integer type n).render.toList = (type.segments n.natAbs).signed (decide (n < 0)) := by
  have htext : (type.segments n.natAbs).text = Nat.toDigits 10 n.natAbs ++ type.suffix.toList := by
    simp [IntegerType.segments, Segments.text]
  rw [render, String.toList_append, Int.toString_eq_repr, Int.repr_eq_if, Segments.signed, htext]
  by_cases hn : n < 0
  · have habs : (-n).toNat = n.natAbs := by omega
    rw [if_neg (by omega), if_pos (by simpa using hn), String.toList_append, Nat.toList_repr, habs]
    rfl
  · have habs : n.toNat = n.natAbs := by omega
    rw [if_pos (by omega), if_neg (by simpa using hn), Nat.toList_repr, habs]

theorem IntegerType.nonneg_of_holds {type : IntegerType} {n : Int} (h : type.holds n = true)
    (hu : type = .uint32 ∨ type = .uint64) : 0 ≤ n := by
  rcases hu with rfl | rfl
  · have hn : 0 ≤ n ∧ n < (Nat.pow 2 32 : Nat) := by simpa [holds] using h
    exact hn.1
  · have hn : 0 ≤ n ∧ n < (Nat.pow 2 64 : Nat) := by simpa [holds] using h
    exact hn.1

theorem IntegerType.exists_integerTypes {type : IntegerType} {n : Int} (h : type.holds n = true) :
    ∃ types target, Literal.integerTypes (decide (n < 0)) type.numberSuffix =
      (type :: types, target) := by
  have hunsigned (hu : type = .uint32 ∨ type = .uint64) : decide (n < 0) = false :=
    decide_eq_false (by have hn := nonneg_of_holds h hu; omega)
  cases type with
  | int32 => cases decide (n < 0) <;> exact ⟨_, _, rfl⟩
  | int64 => exact ⟨_, _, rfl⟩
  | uint32 =>
    rw [hunsigned (.inl rfl)]
    exact ⟨_, _, rfl⟩
  | uint64 =>
    rw [hunsigned (.inr rfl)]
    exact ⟨_, _, rfl⟩

/-- **An integer is read at the type whose suffix it is shown with.** -/
theorem Literal.value_integer {type : IntegerType} {n : Int} (h : type.holds n = true) :
    Literal.value ⟨decide (n < 0), .decimal, Nat.toDigits 10 n.natAbs, none, none,
      type.numberSuffix⟩ = .ok (.integer type n) := by
  have hmagnitude : magnitude ⟨decide (n < 0), .decimal, Nat.toDigits 10 n.natAbs, none, none,
      type.numberSuffix⟩ = n.natAbs := by
    have hdigits (c : Char) (hc : c ∈ Nat.toDigits 10 n.natAbs) : c.isDigit = true :=
      Nat.isDigit_of_mem_toDigits (by decide) (by decide) hc
    show valueOfDigits 10 (digitValues (Nat.toDigits 10 n.natAbs)) = n.natAbs
    rw [digitValues_eq hdigits, valueOfDigits_map, Nat.ofDigitChars_ten_toDigits]
  have hbound : n.natAbs < 2 ^ 64 := by
    cases type <;> simp [IntegerType.holds] at h <;> omega
  -- The sign is taken before a type is tried, so the least value of a type is held as well.
  have hsign : (if decide (n < 0) = true then -(n.natAbs : Int) else n.natAbs) = n := by
    by_cases hn : n < 0
    · rw [if_pos (by simpa using hn)]
      omega
    · rw [if_neg (by simpa using hn)]
      omega
  have hmax (negative : Bool) : ¬maxMagnitude negative < n.natAbs := by
    have hle : 2 ^ 64 ≤ maxMagnitude negative := by cases negative <;> decide
    omega
  have hfloating : isFloating ⟨decide (n < 0), .decimal, Nat.toDigits 10 n.natAbs, none, none,
      type.numberSuffix⟩ = false := by
    cases type <;> rfl
  obtain ⟨types, target, htypes⟩ := IntegerType.exists_integerTypes h
  rw [value, hfloating, if_neg Bool.false_ne_true, integerValue, hmagnitude, if_neg (hmax _),
    if_neg (hmax _)]
  dsimp only
  rw [hsign, htypes]
  have hfind : (type :: types).find? (·.holds n) = some type := List.find?_cons_of_pos h
  dsimp only
  rw [hfind]

/-! ## Decimals -/

namespace Decimal

/-- The digits of a magnitude, with zeros before them so that one stands before the point. -/
def paddedDigits (d : Decimal) : Text :=
  List.replicate (d.scale + 1 - (Nat.toDigits 10 d.mantissa).length) '0' ++
    Nat.toDigits 10 d.mantissa

/-- The segments that a decimal is shown as, apart from its sign. -/
def segments (d : Decimal) : Segments where
  base := .decimal
  basePrefix := []
  integer := d.paddedDigits.take (d.paddedDigits.length - d.scale)
  fraction := if d.scale = 0 then none
    else some (d.paddedDigits.drop (d.paddedDigits.length - d.scale))
  exponent := none
  suffix := ['m']

theorem scale_lt_length (d : Decimal) : d.scale < d.paddedDigits.length := by
  rw [paddedDigits, List.length_append, List.length_replicate]
  omega

theorem isDigit_of_mem_paddedDigits (d : Decimal) : ∀ c ∈ d.paddedDigits, c.isDigit = true := by
  intro c hc
  rcases List.mem_append.1 hc with hc | hc
  · obtain ⟨-, rfl⟩ := List.mem_replicate.1 hc
    decide
  · exact Nat.isDigit_of_mem_toDigits (by decide) (by decide) hc

theorem segments_shown (d : Decimal) : d.segments.Shown := by
  have hlength := d.scale_lt_length
  have hdigits := d.isDigit_of_mem_paddedDigits
  have hfraction (ds : Text) (h : d.segments.fraction = some ds) :
      d.scale ≠ 0 ∧ ds = d.paddedDigits.drop (d.paddedDigits.length - d.scale) := by
    by_cases hs : d.scale = 0 <;> simp_all [segments]
  constructor
  case base => rfl
  case basePrefix => rfl
  case integer =>
    intro hnil
    have hzero := congrArg List.length hnil
    simp only [segments, List.length_take, List.length_nil] at hzero
    omega
  case integerDigits => exact fun c hc => hdigits c (List.mem_of_mem_take hc)
  case fraction =>
    intro ds hds hnil
    obtain ⟨hs, rfl⟩ := hfraction ds hds
    have hzero := congrArg List.length hnil
    simp only [List.length_drop, List.length_nil] at hzero
    omega
  case fractionDigits =>
    intro ds hds c hc
    obtain ⟨-, rfl⟩ := hfraction ds hds
    exact hdigits c (List.mem_of_mem_drop hc)
  case exponent => rfl
  case suffix => exact (by decide : ['m'] ∈ shownSuffixes)

theorem digits_segments (d : Decimal) :
    d.segments.integer ++ d.segments.fraction.getD [] = d.paddedDigits := by
  by_cases hs : d.scale = 0
  · simp [segments, hs]
  · simp [segments, hs, List.take_append_drop]

theorem length_fraction (d : Decimal) : (d.segments.fraction.getD []).length = d.scale := by
  have hlength := d.scale_lt_length
  by_cases hs : d.scale = 0
  · simp [segments, hs]
  · simp only [segments, if_neg hs, Option.getD_some, List.length_drop]
    omega

theorem ofDigitChars_paddedDigits (d : Decimal) :
    Nat.ofDigitChars 10 d.paddedDigits 0 = d.mantissa := by
  rw [paddedDigits, Nat.ofDigitChars_append, Nat.ofDigitChars_replicate_zero, Nat.mul_zero,
    Nat.ofDigitChars_ten_toDigits]

theorem paddedDigits_of_lt {d : Decimal} (h : d.scale < (Nat.toDigits 10 d.mantissa).length) :
    d.paddedDigits = Nat.toDigits 10 d.mantissa := by
  rw [paddedDigits, Nat.sub_eq_zero_of_le h, List.replicate_zero, List.nil_append]

theorem paddedDigits_of_le {d : Decimal} (h : (Nat.toDigits 10 d.mantissa).length ≤ d.scale) :
    d.paddedDigits = '0' :: (List.replicate (d.scale - (Nat.toDigits 10 d.mantissa).length) '0' ++
      Nat.toDigits 10 d.mantissa) := by
  rw [paddedDigits, Nat.succ_sub h, List.replicate_succ, List.cons_append]

theorem magnitudeText_eq (d : Decimal) : d.magnitudeText ++ ['m'] = d.segments.text := by
  have hpos : 0 < (Nat.toDigits 10 d.mantissa).length := Nat.length_toDigits_pos
  unfold magnitudeText
  dsimp only
  by_cases hs : d.scale = 0
  · have hpadded := paddedDigits_of_lt (d := d) (by omega)
    simp [hs, segments, Segments.text, hpadded]
  · rw [if_neg hs]
    by_cases hlt : d.scale < (Nat.toDigits 10 d.mantissa).length
    · simp [hs, hlt, segments, Segments.text, paddedDigits_of_lt hlt]
    · have hpadded := paddedDigits_of_le (Nat.le_of_not_lt hlt)
      have hlength : d.paddedDigits.length - d.scale = 1 := by
        rw [hpadded, List.length_cons, List.length_append, List.length_replicate]
        omega
      have htext : d.segments.text =
          d.paddedDigits.take 1 ++ '.' :: (d.paddedDigits.drop 1 ++ ['m']) := by
        simp [hs, segments, Segments.text, hlength]
      rw [htext, hpadded, if_neg hlt]
      simp

end Decimal

theorem Value.render_decimal (d : Decimal) :
    (decimal d).render.toList = d.segments.signed d.negative := by
  have hm : "m".toList = ['m'] := rfl
  cases hd : d.negative <;> simp [render, Decimal.render, hd, Segments.signed, ← d.magnitudeText_eq]

/-- **No digit of a decimal is rounded away.** -/
theorem Literal.value_decimal {d : Decimal} (h : d.Canonical) :
    Literal.value ⟨d.negative, .decimal, d.segments.integer, d.segments.fraction, none, .decimal⟩ =
      .ok (.decimal d) := by
  have hdigits : ∀ c ∈ d.segments.integer ++ d.segments.fraction.getD [], c.isDigit = true := by
    rw [d.digits_segments]
    exact d.isDigit_of_mem_paddedDigits
  have hvalue : Nat.ofDigitChars 10 (d.segments.integer ++ d.segments.fraction.getD []) 0 =
      d.mantissa := by
    rw [d.digits_segments, d.ofDigitChars_paddedDigits]
  have hread := Decimal.ofDigits?_eq (fun c hc => hdigits c (List.mem_append_left _ hc))
    (fun c hc => hdigits c (List.mem_append_right _ hc)) (by rw [hvalue]; exact h.mantissa)
    (by rw [d.length_fraction]; exact h.scale) d.negative
  rw [hvalue, d.length_fraction, Decimal.normalized_eq_self h] at hread
  have hdecimal : decimal? ⟨d.negative, .decimal, d.segments.integer, d.segments.fraction, none,
      .decimal⟩ = .ok (some d) := by
    rw [← hread]
    rfl
  have hfloating : isFloating ⟨d.negative, .decimal, d.segments.integer, d.segments.fraction, none,
      .decimal⟩ = true := by
    simp [isFloating, NumberSuffix.isFloating]
  rw [value, hfloating, if_pos rfl]
  show decimalValue _ = _
  rw [decimalValue, hdecimal]
  rfl

/-! ## Round trip -/

theorem Decimal.Canonical.readNumber_render {d : Decimal} (h : d.Canonical) :
    readNumber (Value.decimal d).render.toList = .ok (.decimal d) := by
  rw [Value.render_decimal, readNumber, d.segments_shown.split_eq d.negative rfl]
  exact Literal.value_decimal h

/-- The integers of each type, and the decimals that can be made. -/
inductive Value.Exact : Value → Prop
  | integer {type : IntegerType} {n : Int} (h : type.holds n = true) : Exact (.integer type n)
  | decimal {d : Decimal} (h : d.Obtained) : Exact (.decimal d)

/-- **Exact numbers are read as they are shown**: as one number with the same value, and nothing is
wrong with it. -/
theorem Text.tokenize_render {v : Value} (h : v.Exact) :
    Text.tokenize v.render.toList =
      ⟨[⟨.number, ⟨0, Text.size v.render.toList⟩, v⟩], []⟩ := by
  cases h with
  | @integer type n h =>
    rw [Value.render_integer]
    refine (type.segments_shown n.natAbs).tokenize_signed (fun hneg => ?_) ?_
    · have hn : n < 0 := of_decide_eq_true hneg
      have hu (hu : type = .uint32 ∨ type = .uint64) : False := by
        have hnonneg := IntegerType.nonneg_of_holds h hu
        omega
      cases type with
      | int32 | int64 => rfl
      | uint32 => exact (hu (.inl rfl)).elim
      | uint64 => exact (hu (.inr rfl)).elim
    · have hsuffix : NumberSuffix.ofText? (type.segments n.natAbs).suffix =
          some type.numberSuffix := by
        cases type <;> rfl
      rw [readNumber, (type.segments_shown n.natAbs).split_eq _ hsuffix]
      exact Literal.value_integer h
  | @decimal d h =>
    have hread := (Decimal.canonical_of_obtained h).readNumber_render
    rw [Value.render_decimal] at hread ⊢
    exact d.segments_shown.tokenize_signed (fun _ => rfl) hread

/-- The least integer of 64 bits, and the greatest magnitude with all its digits but one after the
point. -/
theorem Text.tokenize_render_extremes :
    tokenize "-9223372036854775808L".toList =
        ⟨[⟨.number, ⟨0, 21⟩, .integer .int64 (-9223372036854775808)⟩], []⟩ ∧
      tokenize "7.9228162514264337593543950335m".toList =
        ⟨[⟨.number, ⟨0, 31⟩, .decimal ⟨79228162514264337593543950335, 28, false⟩⟩], []⟩ := by
  have hinteger : (Value.integer .int64 (-9223372036854775808)).Exact := .integer (by decide)
  have hdecimal : (Value.decimal ⟨79228162514264337593543950335, 28, false⟩).Exact :=
    .decimal (.ofParts (by decide +kernel :
      Decimal.ofParts? 79228162514264337593543950335 28 false = some _))
  have hleast := tokenize_render hinteger
  have hgreatest := tokenize_render hdecimal
  rw [show (Value.integer .int64 (-9223372036854775808)).render = "-9223372036854775808L" by
    decide +kernel] at hleast
  rw [show (Value.decimal ⟨79228162514264337593543950335, 28, false⟩).render =
    "7.9228162514264337593543950335m" by decide +kernel] at hgreatest
  exact ⟨hleast, hgreatest⟩

end LesTokens
