/-
The grammar of escapes. Which unit leads a content depends on what stands behind it: a code point
has the digits that are there, up to the number it asks for (`EscapeUnit.Leads`). Exactly one unit
leads what is not empty, so a content splits into units in exactly one way, which is the way it is
read (`EscapeUnit.splits_iff`).
-/
import LesTokens.Proofs.ReportOrder

namespace LesTokens

/-! ## Letters -/

/-- The letters of simple escapes, and the characters they stand for. -/
def simpleEscapes : List (Char × Char) :=
  [('a', '\x07'), ('b', '\x08'), ('f', '\x0c'), ('v', '\x0b'), ('n', '\x0a'), ('r', '\x0d'),
    ('t', '\x09'), ('0', '\x00'), ('\\', '\\'), ('\x27', '\x27'), ('\x22', '\x22'),
    ('\x60', '\x60')]

/-- The letters of code points, and the number of digits they ask for. -/
def codePointWidths : List (Char × Nat) := [('u', 4), ('U', 8)]

theorem simpleEscape?_eq_some_iff {letter c : Char} :
    simpleEscape? letter = some c ↔ (letter, c) ∈ simpleEscapes := by
  unfold simpleEscape?
  split <;> simp_all [simpleEscapes, eq_comm]

theorem codePointWidth?_eq_some_iff {letter : Char} {width : Nat} :
    codePointWidth? letter = some width ↔ (letter, width) ∈ codePointWidths := by
  unfold codePointWidth?
  split <;> simp_all [codePointWidths, eq_comm]

theorem simpleEscape?_eq_none_iff {letter : Char} :
    simpleEscape? letter = none ↔ ∀ c, (letter, c) ∉ simpleEscapes := by
  simp only [← simpleEscape?_eq_some_iff, Option.eq_none_iff_forall_ne_some, ne_eq]

theorem codePointWidth?_eq_none_iff {letter : Char} :
    codePointWidth? letter = none ↔ ∀ width, (letter, width) ∉ codePointWidths := by
  simp only [← codePointWidth?_eq_some_iff, Option.eq_none_iff_forall_ne_some, ne_eq]

theorem simpleEscape?_of_codePointWidth? {letter : Char} {width : Nat}
    (h : codePointWidth? letter = some width) : simpleEscape? letter = none := by
  rw [codePointWidth?_eq_some_iff] at h
  have hletter : letter = 'u' ∨ letter = 'U' := by
    simp only [codePointWidths, List.mem_cons, Prod.mk.injEq, List.not_mem_nil, or_false] at h
    exact h.imp And.left And.left
  rcases hletter with rfl | rfl <;> rfl

/-! ## Digits -/

theorem charOfCodePoint?_eq_some_iff {n : Nat} {c : Char} :
    charOfCodePoint? n = some c ↔ c.toNat = n := by
  constructor
  · intro h
    by_cases hn : n.isValidChar
    · have hc : some (Char.ofNatAux n hn) = some c := (dif_pos hn).symm.trans h
      rw [← Option.some.inj hc]
      rfl
    · rw [charOfCodePoint?, dif_neg hn] at h
      cases h
  · rintro rfl
    have hvalid : c.toNat.isValidChar := c.valid
    have hc : Char.ofNatAux c.toNat hvalid = c := Char.toNat_inj.1 rfl
    exact (dif_pos hvalid).trans (congrArg some hc)

theorem charOfCodePoint?_eq_none_iff {n : Nat} :
    charOfCodePoint? n = none ↔ ∀ c : Char, c.toNat ≠ n := by
  simp only [← charOfCodePoint?_eq_some_iff, Option.eq_none_iff_forall_ne_some, ne_eq]

/-- The number that hexadecimal digits name. -/
def hexValue (digits : Text) : Nat := valueOfDigits 16 (digitValues digits)

/-- The digits that a code point has before `rest`: it asks for `width`, and has fewer only if no
other digit follows. -/
structure HexDigits (width : Nat) (digits rest : Text) : Prop where
  digit : ∀ d ∈ digits, Base.isDigit .hexadecimal d = true
  length_le : digits.length ≤ width
  maximal : digits.length < width → opensWith (Base.isDigit .hexadecimal) rest = false

namespace HexDigits

variable {width : Nat} {digits rest : Text}

theorem presentDigits_eq (h : HexDigits width digits rest) :
    presentDigits width (digits ++ rest) = digits := by
  have htake : (digits ++ rest).take width = digits ++ rest.take (width - digits.length) := by
    rw [List.take_append, List.take_of_length_le h.length_le]
  have hrest : (rest.take (width - digits.length)).takeWhile (Base.isDigit .hexadecimal) = [] := by
    rcases Nat.eq_or_lt_of_le h.length_le with heq | hlt
    · rw [heq, Nat.sub_self]
      rfl
    · rw [← List.take_takeWhile, (takeWhile_of_not_opensWith (h.maximal hlt)).1, List.take_nil]
  rw [presentDigits, htake, List.takeWhile_append_of_pos h.digit, hrest, List.append_nil]

theorem exists_append (width : Nat) (t : Text) :
    ∃ digits rest, digits ++ rest = t ∧ HexDigits width digits rest := by
  have hall : (t.takeWhile (Base.isDigit .hexadecimal)).all (Base.isDigit .hexadecimal) = true :=
    List.all_takeWhile
  refine ⟨(t.takeWhile (Base.isDigit .hexadecimal)).take width,
    (t.takeWhile (Base.isDigit .hexadecimal)).drop width ++ t.dropWhile (Base.isDigit .hexadecimal),
    ?_, fun d hd => List.all_eq_true.1 hall d (List.mem_of_mem_take hd), List.length_take_le ..,
    fun hlt => ?_⟩
  · rw [← List.append_assoc, List.take_append_drop, List.takeWhile_append_dropWhile]
  · -- Fewer digits than asked for are all there are.
    rw [List.length_take] at hlt
    rw [List.drop_of_length_le (by omega), List.nil_append]
    exact opensWith_dropWhile _ t

theorem codePoint?_eq (h : HexDigits width digits rest) : codePoint? width (digits ++ rest) =
    if digits.length = width then charOfCodePoint? (hexValue digits) else none := by
  rcases Nat.eq_or_lt_of_le h.length_le with heq | hlt
  · have htake : (digits ++ rest).take width = digits := List.take_left' heq
    have hall : digits.all (Base.isDigit .hexadecimal) = true := List.all_eq_true.2 h.digit
    simp [codePoint?, htake, heq, hall, hexValue]
  · have hshort : ¬(((digits ++ rest).take width).length = width ∧
        ∀ d ∈ (digits ++ rest).take width, Base.isDigit .hexadecimal d = true) := by
      rintro ⟨hlength, hdigits⟩
      have hself := @List.takeWhile_append_of_pos _ _ _ [] hdigits
      rw [List.append_nil, List.takeWhile_nil, List.append_nil] at hself
      have hpresent := h.presentDigits_eq
      rw [presentDigits, hself] at hpresent
      rw [hpresent] at hlength
      omega
    rw [if_neg (by omega), codePoint?]
    exact if_neg (by simpa using hshort)

theorem codePoint?_eq_none (h : HexDigits width digits rest)
    (hc : ∀ c : Char, digits.length = width → c.toNat ≠ hexValue digits) :
    codePoint? width (digits ++ rest) = none := by
  rw [h.codePoint?_eq, ite_eq_right_iff]
  exact fun hfull => charOfCodePoint?_eq_none_iff.2 fun c => hc c hfull

end HexDigits

/-! ## Units -/

namespace EscapeUnit

/-- Which unit leads a content, when `rest` stands behind the unit. -/
inductive Leads : EscapeUnit → Text → Prop
  /-- A character that is not a backslash stands for itself. -/
  | plain {c : Char} {rest : Text} (hc : c ≠ '\\') : Leads ⟨[c], some c⟩ rest
  | simple {letter c : Char} {rest : Text} (hs : (letter, c) ∈ simpleEscapes) :
      Leads ⟨['\\', letter], some c⟩ rest
  | codePoint {letter c : Char} {width : Nat} {digits rest : Text}
      (hw : (letter, width) ∈ codePointWidths) (hd : HexDigits width digits rest)
      (hfull : digits.length = width) (hc : c.toNat = hexValue digits) :
      Leads ⟨'\\' :: letter :: digits, some c⟩ rest
  /-- A backslash at the end of the content. -/
  | lone : Leads ⟨['\\'], none⟩ []
  /-- The digits of a code point, if they are too few or name no character. -/
  | unnamed {letter : Char} {width : Nat} {digits rest : Text}
      (hw : (letter, width) ∈ codePointWidths) (hd : HexDigits width digits rest)
      (hc : ∀ c : Char, digits.length = width → c.toNat ≠ hexValue digits) :
      Leads ⟨'\\' :: letter :: digits, none⟩ rest
  | unknown {letter : Char} {rest : Text} (hs : ∀ c, (letter, c) ∉ simpleEscapes)
      (hw : ∀ width, (letter, width) ∉ codePointWidths) : Leads ⟨['\\', letter], none⟩ rest

/-- **At most one unit leads a content.** -/
theorem first_eq_of_leads {u : EscapeUnit} {rest t : Text} {c : Char} (h : u.Leads rest)
    (ht : u.text ++ rest = c :: t) : first c t = u := by
  cases h with
  | plain hc =>
    obtain ⟨rfl, rfl⟩ := List.cons.inj ht
    exact first_of_ne hc _
  | simple hs =>
    obtain ⟨rfl, rfl⟩ := List.cons.inj ht
    simp [first, simpleEscape?_eq_some_iff.2 hs]
  | codePoint hw hd hfull hc =>
    obtain ⟨rfl, rfl⟩ := List.cons.inj ht
    have hwidth := codePointWidth?_eq_some_iff.2 hw
    have htake : List.take _ (_ ++ rest) = _ := List.take_left' hfull
    simp [first, simpleEscape?_of_codePointWidth? hwidth, hwidth, hd.codePoint?_eq, hfull,
      charOfCodePoint?_eq_some_iff.2 hc, htake]
  | lone =>
    obtain ⟨rfl, rfl⟩ := List.cons.inj ht
    rfl
  | @unnamed letter width digits _ hw hd hc =>
    obtain ⟨rfl, rfl⟩ := List.cons.inj ht
    have hwidth := codePointWidth?_eq_some_iff.2 hw
    simp [first, simpleEscape?_of_codePointWidth? hwidth, hwidth, hd.codePoint?_eq_none hc,
      hd.presentDigits_eq]
  | @unknown letter _ hs hw =>
    obtain ⟨rfl, rfl⟩ := List.cons.inj ht
    simp [first, simpleEscape?_eq_none_iff.2 hs, codePointWidth?_eq_none_iff.2 hw]

/-- **A unit leads what is not empty.** -/
theorem leads_first (c : Char) (t : Text) :
    (first c t).Leads ((c :: t).drop (first c t).text.length) := by
  unfold first
  split
  · rename_i hc
    exact .plain hc
  · rename_i hc
    obtain rfl : c = '\\' := Classical.not_not.1 hc
    cases t with
    | nil => exact .lone
    | cons letter t =>
      dsimp only
      split
      · rename_i hs
        exact .simple (simpleEscape?_eq_some_iff.1 hs)
      · rename_i width hs hw
        obtain ⟨digits, rest, rfl, hd⟩ := HexDigits.exists_append width t
        have hwidth := codePointWidth?_eq_some_iff.1 hw
        rw [hd.codePoint?_eq, hd.presentDigits_eq]
        split
        · rename_i c hc
          obtain ⟨hfull, hc⟩ := Option.ite_none_right_eq_some.1 hc
          rw [List.take_left' hfull]
          simpa using Leads.codePoint hwidth hd hfull (charOfCodePoint?_eq_some_iff.1 hc)
        · rename_i hc
          have hunnamed (c : Char) (hfull : digits.length = width) : c.toNat ≠ hexValue digits := by
            intro heq
            rw [if_pos hfull, charOfCodePoint?_eq_some_iff.2 heq] at hc
            cases hc
          simpa using Leads.unnamed hwidth hd hunnamed
      · rename_i hs hw
        exact .unknown (simpleEscape?_eq_none_iff.1 hs) (codePointWidth?_eq_none_iff.1 hw)

/-- The ways to split a content into units, from left to right. -/
inductive Splits : Text → List EscapeUnit → Prop
  | nil : Splits [] []
  | cons {u : EscapeUnit} {rest : Text} {us : List EscapeUnit} (h : u.Leads rest)
      (hs : Splits rest us) : Splits (u.text ++ rest) (u :: us)

theorem Leads.text_ne_nil {u : EscapeUnit} {rest : Text} (h : u.Leads rest) : u.text ≠ [] := by
  cases h <;> exact List.cons_ne_nil _ _

/-- **A content splits in one way.** -/
theorem splits_iff {content : Text} {us : List EscapeUnit} :
    Splits content us ↔ us = units content := by
  constructor
  · intro h
    induction h with
    | nil => simp [units]
    | @cons u rest us h _ ih =>
      obtain ⟨c, t, ht⟩ := List.exists_cons_of_ne_nil h.text_ne_nil
      have hfirst : first c (t ++ rest) = u := first_eq_of_leads h (by rw [ht]; rfl)
      have hrest : (c :: (t ++ rest)).drop u.text.length = rest := by
        rw [ht]
        exact @List.drop_left _ (c :: t) rest
      rw [ih, ht, List.cons_append, units_cons, hfirst, hrest]
  · rintro rfl
    fun_induction units content with
    | case1 => exact .nil
    | case2 c t u ih =>
      have happend : u.text ++ (c :: t).drop u.text.length = c :: t :=
        List.prefix_iff_eq_append.1 (isPrefix_text_first c t)
      have hcons := Splits.cons (leads_first c t) ih
      rwa [happend] at hcons

/-! ## Places -/

/-- Units of a text and the offsets where they stand; the first one stands at `offset`. -/
def placed (offset : Nat) : List EscapeUnit → List (Nat × EscapeUnit)
  | [] => []
  | u :: us => (offset, u) :: placed (offset + u.text.size) us

theorem getElem?_placed (offset : Nat) (us : List EscapeUnit) (k : Nat) : (placed offset us)[k]? =
    us[k]?.map fun u => (offset + Text.size ((us.take k).flatMap text), u) := by
  induction us generalizing offset k with
  | nil => simp [placed]
  | cons u us ih =>
    cases k with
    | zero => simp [placed]
    | succ k => simp [placed, ih, Nat.add_assoc]

/-- What is reported of a unit that is invalid. -/
def diagnostic (place : Nat × EscapeUnit) : Diagnostic :=
  ⟨.ofLength place.1 place.2.text.size, .unrecognizedEscape place.2.text⟩

/-- Each invalid unit is reported once, in order, and where it stands. -/
theorem escapeDiagnostics_eq (offset : Nat) (us : List EscapeUnit) : escapeDiagnostics offset us =
    ((placed offset us).filter fun place => place.2.char.isNone).map diagnostic := by
  induction us generalizing offset with
  | nil => rfl
  | cons u us ih => cases hu : u.char <;> simp [escapeDiagnostics, placed, hu, ih, diagnostic]

end EscapeUnit

end LesTokens
