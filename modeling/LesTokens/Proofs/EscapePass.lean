/-
One pass over a content reads its units one after another (`EscapePass.run_of_splits`). Each step is
one unit (`run_of_leads`): the bytes behind the letter of a code point are looked at where its
digits stand, and as many characters are counted off as the unit has.

**`Text.escapes_decoded`**: a content splits into units in one way, and the pass decodes them and
reports the invalid ones.
-/
import LesTokens.Escape.Pass
import LesTokens.Proofs.Bytes
import LesTokens.Proofs.EscapeGrammar

namespace LesTokens

/-! ## Characters and offsets -/

namespace Text

theorem drop_indexed (offset n : Nat) (t : Text) :
    (t.indexed offset).drop n = indexed (offset + size (t.take n)) (t.drop n) := by
  induction n generalizing offset t with
  | zero => simp
  | succ n ih =>
    cases t with
    | nil => simp [indexed]
    | cons c t => simp [indexed, ih, Nat.add_assoc]

theorem slice?_append (front t : Text) (n : Nat) :
    (front ++ t).slice? front.size (front.size + n) = (splitAt? n t).map (·.1) := by
  rw [slice?, if_pos (Nat.le_add_right _ _), splitAt?_size_append, Nat.add_sub_cancel_left]
  cases h : splitAt? n t <;> simp [h]

end Text

namespace EscapePass

open EscapeUnit

/-! ## Looking at the digits -/

theorem ofBytes_hex : Text.OfBytes (Base.isDigit .hexadecimal) isHexByte := by
  refine ByteClass.ofBytes (k := .digit .hexadecimal) fun c hc => ?_
  have hgt (d : Char) (hd : d.toNat < 128) : ¬c ≤ d := by
    intro hle
    have hnat : c.toNat ≤ d.toNat := UInt32.le_iff_toNat_le.1 (Char.le_def.1 hle)
    omega
  have hdecimal : c.isDigit = false := by
    rw [Bool.eq_false_iff]
    intro hd
    have := toNat_of_isDigit hd
    omega
  simp [ByteClass.holdsChar, Base.isDigit, hdecimal, hgt 'f' (by decide), hgt 'F' (by decide)]

variable {width : Nat} {digits rest : Text}

theorem codePointAt?_append (front : Text) (h : HexDigits width digits rest) :
    codePointAt? (front ++ (digits ++ rest)) front.size width =
      codePoint? width (digits ++ rest) := by
  have hsize := ofBytes_hex.size_eq_length h.digit
  have hall : digits.all (Base.isDigit .hexadecimal) = true := List.all_eq_true.2 h.digit
  rw [codePointAt?, Text.slice?_append, h.codePoint?_eq]
  by_cases hfull : digits.length = width
  · rw [if_pos hfull, ← hfull, ← hsize, Text.splitAt?_size_append]
    simp [ofBytes_hex.all_bytes, hall, hexValue]
  · rw [if_neg hfull]
    cases hsplit : Text.splitAt? width (digits ++ rest) with
    | none => rfl
    | some parts =>
      obtain ⟨happend, hlength⟩ := Text.append_of_splitAt? hsplit
      refine if_neg fun hbytes => hfull ?_
      -- If all these bytes were digits, they would be the digits.
      rw [ofBytes_hex.all_bytes, List.all_eq_true] at hbytes
      have htaken : parts.1.length = width :=
        (ofBytes_hex.size_eq_length hbytes).symm.trans hlength
      have hd : HexDigits width parts.1 parts.2 :=
        ⟨hbytes, Nat.le_of_eq htaken, fun hlt => absurd htaken (Nat.ne_of_lt hlt)⟩
      have hsame := hd.presentDigits_eq
      rw [happend, h.presentDigits_eq] at hsame
      rw [hsame, htaken]

theorem digitsAt_append (front : Text) (h : HexDigits width digits rest) :
    digitsAt (front ++ (digits ++ rest)) front.size width = digits.length := by
  have hsize := ofBytes_hex.size_eq_length h.digit
  rw [digitsAt, Text.dropBytes_size_append, ← List.take_takeWhile, ofBytes_hex.takeWhile_bytes,
    List.takeWhile_append_of_pos h.digit, List.length_take, Text.length_bytes, Text.size_append]
  rcases Nat.eq_or_lt_of_le h.length_le with heq | hlt
  · omega
  · rw [(takeWhile_of_not_opensWith (h.maximal hlt)).1, Text.size_nil]
    omega

/-! ## Reading unit by unit -/

/-- What a pass is behind a unit that stands at an offset of the source. -/
def read (p : EscapePass) (place : Nat × EscapeUnit) : EscapePass :=
  match place.2.char with
  | some c => p.push c
  | none => p.keep (.ofLength place.1 place.2.text.size) place.2.text

theorem run_of_ne {c : Char} (hc : c ≠ '\\') (content : Text) (offset i : Nat)
    (left : List (Nat × Char)) (p : EscapePass) :
    run content offset ((i, c) :: left) p = run content offset left (p.push c) := by
  rw [run.eq_def]
  exact if_pos hc

theorem run_lone (content : Text) (offset i : Nat) (p : EscapePass) :
    run content offset [(i, '\\')] p =
      run content offset [] (p.read (offset + i, ⟨['\\'], none⟩)) := by
  rw [run.eq_def, run.eq_def]
  rfl

theorem run_of_codePoint {letter c : Char} {content : Text} {i : Nat}
    (hw : codePointWidth? letter = some width) (hc : codePointAt? content (i + 2) width = some c)
    (offset j : Nat) (left : List (Nat × Char)) (p : EscapePass) :
    run content offset ((i, '\\') :: (j, letter) :: left) p =
      run content offset (left.drop width) (p.push c) := by
  rw [run.eq_def]
  simp only [ne_eq, not_true_eq_false, if_false, simpleEscape?_of_codePointWidth? hw, hw, hc,
    List.drop_succ_cons]

theorem run_of_unnamed {letter : Char} {content escape : Text} {i present : Nat}
    (hw : codePointWidth? letter = some width) (hc : codePointAt? content (i + 2) width = none)
    (hp : digitsAt content (i + 2) width = present)
    (hs : content.slice? i (i + 2 + present) = some escape)
    (offset j : Nat) (left : List (Nat × Char)) (p : EscapePass) :
    run content offset ((i, '\\') :: (j, letter) :: left) p =
      run content offset (left.drop present)
        (p.keep (.ofLength (offset + i) (2 + present)) escape) := by
  rw [run.eq_def]
  simp only [ne_eq, not_true_eq_false, if_false, simpleEscape?_of_codePointWidth? hw, hw, hc, hp, hs,
    List.drop_succ_cons, Option.getD_some]

theorem utf8Size_backslash : Char.utf8Size '\\' = 1 := rfl

theorem utf8Size_of_mem_codePointWidths {letter : Char} {width : Nat}
    (h : (letter, width) ∈ codePointWidths) : letter.utf8Size = 1 := by
  simp only [codePointWidths, List.mem_cons, Prod.mk.injEq, List.not_mem_nil, or_false] at h
  rcases h with ⟨rfl, -⟩ | ⟨rfl, -⟩ <;> rfl

theorem size_codePoint {letter : Char} (hw : (letter, width) ∈ codePointWidths)
    (hd : HexDigits width digits rest) :
    Text.size ('\\' :: letter :: digits) = 2 + digits.length := by
  rw [Text.size_cons, Text.size_cons, utf8Size_backslash, utf8Size_of_mem_codePointWidths hw,
    ofBytes_hex.size_eq_length hd.digit]
  omega

/-- What a step sees behind the letter of a code point, and what is left when it has counted off the
digits. -/
theorem looks_behind (front : Text) {letter : Char} (hw : (letter, width) ∈ codePointWidths)
    (hd : HexDigits width digits rest) :
    let content := front ++ '\\' :: letter :: (digits ++ rest)
    codePointAt? content (front.size + 2) width = codePoint? width (digits ++ rest) ∧
      digitsAt content (front.size + 2) width = digits.length ∧
      ((digits ++ rest).indexed (front.size + Char.utf8Size '\\' + letter.utf8Size)).drop
          digits.length =
        rest.indexed (front.size + Text.size ('\\' :: letter :: digits)) := by
  have hletter := utf8Size_of_mem_codePointWidths hw
  have hlook := codePointAt?_append (front ++ ['\\', letter]) hd
  have hcount := digitsAt_append (front ++ ['\\', letter]) hd
  refine ⟨?_, ?_, ?_⟩
  · simpa [utf8Size_backslash, hletter] using hlook
  · simpa [utf8Size_backslash, hletter] using hcount
  · simp [Text.drop_indexed, Nat.add_assoc]

/-- **One step reads the unit that leads what is left.** -/
theorem run_of_leads {u : EscapeUnit} (h : u.Leads rest) (front : Text) (offset : Nat)
    (p : EscapePass) :
    run (front ++ (u.text ++ rest)) offset ((u.text ++ rest).indexed front.size) p =
      run (front ++ (u.text ++ rest)) offset (rest.indexed (front.size + u.text.size))
        (p.read (offset + front.size, u)) := by
  cases h with
  | plain hc => exact run_of_ne hc ..
  | simple hs =>
    have hsimple := simpleEscape?_eq_some_iff.2 hs
    simp [Text.indexed, run, read, hsimple, Nat.add_assoc]
  | @codePoint letter c width digits _ hw hd hfull hc =>
    obtain ⟨hlook, -, hleft⟩ := looks_behind front hw hd
    rw [hd.codePoint?_eq, if_pos hfull, charOfCodePoint?_eq_some_iff.2 hc] at hlook
    simp only [List.cons_append, Text.indexed]
    rw [run_of_codePoint (codePointWidth?_eq_some_iff.2 hw) hlook, ← hfull, hleft]
    rfl
  | lone => exact run_lone ..
  | @unnamed letter width digits _ hw hd hc =>
    obtain ⟨hlook, hcount, hleft⟩ := looks_behind front hw hd
    rw [hd.codePoint?_eq_none hc] at hlook
    have hsize := size_codePoint hw hd
    have hslice := Text.slice?_size_append front ('\\' :: letter :: digits) rest
    rw [hsize, ← Nat.add_assoc] at hslice
    simp only [List.cons_append] at hslice
    simp only [List.cons_append, Text.indexed]
    rw [run_of_unnamed (codePointWidth?_eq_some_iff.2 hw) hlook hcount hslice, hleft, read, hsize]
  | @unknown letter _ hs hw =>
    have hsimple := simpleEscape?_eq_none_iff.2 hs
    have hwidth := codePointWidth?_eq_none_iff.2 hw
    simp [Text.indexed, run, read, hsimple, hwidth, utf8Size_backslash, Nat.add_assoc]

/-- **A pass reads the units of a content.** -/
theorem run_of_splits {t : Text} {us : List EscapeUnit} (h : Splits t us) (front : Text)
    (offset : Nat) (p : EscapePass) :
    run (front ++ t) offset (t.indexed front.size) p =
      (placed (offset + front.size) us).foldl read p := by
  induction h generalizing front p with
  | nil => simp [Text.indexed, run, placed]
  | @cons u rest us h _ ih =>
    have hrest := ih (front ++ u.text) (p.read (offset + front.size, u))
    rw [List.append_assoc, Text.size_append, ← Nat.add_assoc] at hrest
    rw [run_of_leads h, hrest, placed, List.foldl_cons]

theorem foldl_read (offset : Nat) (us : List EscapeUnit) (p : EscapePass) :
    (placed offset us).foldl read p =
      ⟨p.text ++ us.flatMap decoded, p.reported ++ escapeDiagnostics offset us⟩ := by
  induction us generalizing offset p with
  | nil => simp [placed, escapeDiagnostics]
  | cons u us ih =>
    rw [placed, List.foldl_cons, ih]
    cases hu : u.char <;> simp [read, push, keep, escapeDiagnostics, decoded, hu]

theorem unescape_eq (content : Text) (offset : Nat) (reported : List Diagnostic) :
    unescape content offset reported =
      match unescape? content offset with
      | some (t, diagnostics) => (some t, reported ++ diagnostics)
      | none => (none, reported) := by
  have hrun := run_of_splits (splits_iff.2 rfl) [] offset ⟨[], reported⟩ (t := content)
  rw [foldl_read] at hrun
  simp only [List.nil_append, Text.size_nil, Nat.add_zero] at hrun
  unfold unescape unescape?
  split
  · simp only [hrun]
  · rfl

end EscapePass

/-! ## Contents -/

/-- **Escapes are decoded by their grammar.** A content splits into units in one way. Without a
backslash there is nothing to decode. Else it is decoded unit by unit, an invalid one as it is
written, and each invalid unit is reported once, in order, where it stands. The pass gives the same,
and adds its reports to those that are there. -/
theorem Text.escapes_decoded (content : Text) (offset : Nat) (reported : List Diagnostic) :
    ∃ us : List EscapeUnit, (∀ us', EscapeUnit.Splits content us' ↔ us' = us) ∧
      let decoded := us.flatMap EscapeUnit.decoded
      let diagnostics := ((EscapeUnit.placed offset us).filter fun place =>
        place.2.char.isNone).map EscapeUnit.diagnostic
      unescape? content offset = (if '\\' ∈ content then some (decoded, diagnostics) else none) ∧
      EscapePass.unescape content offset reported =
        if '\\' ∈ content then (some decoded, reported ++ diagnostics) else (none, reported) := by
  refine ⟨EscapeUnit.units content, fun us' => EscapeUnit.splits_iff, ?_⟩
  dsimp only
  have hunescape : unescape? content offset = if '\\' ∈ content then
      some ((EscapeUnit.units content).flatMap EscapeUnit.decoded,
        escapeDiagnostics offset (EscapeUnit.units content)) else none := by
    simp only [unescape?, List.contains_iff_mem]
  rw [← EscapeUnit.escapeDiagnostics_eq]
  refine ⟨hunescape, ?_⟩
  rw [EscapePass.unescape_eq, hunescape]
  by_cases hmem : '\\' ∈ content
  · rw [if_pos hmem, if_pos hmem]
  · rw [if_neg hmem, if_neg hmem]

/-- A code point cut short by another escape. -/
example : unescape? "é\\u12\\n".toList 3 =
    some ("é\\u12\n".toList, [⟨⟨5, 9⟩, .unrecognizedEscape "\\u12".toList⟩]) := by
  decide +kernel

end LesTokens
