/-
The minus sign in front of a number. Where an operand may stand, a `-` before a number is tried as its
sign: the number is scanned, and if it turns out to be unsigned, the `-` is an operator of its own and
the number is scanned again, to the same extent (`Text.take_lexemesAfter_minus`). The suffix that is
asked for there in the text is the one that is read. So a number that is read is never both negative and
unsigned.

**`Text.minus_signs`**: what a `-` starts, and that no number is too small for an unsigned type.
-/
import LesTokens.Proofs.OverflowTargets

namespace LesTokens

/-! ## Where an operand may stand -/

/-- Whether an operand may stand behind a text: at the start of the source, and behind a blank, a line
end, an opening bracket, a comma or a semicolon. -/
def OperandFollows (front : Text) : Prop :=
  front = [] ∨ ∃ c ∈ [' ', '\t', '\n', '\r', '(', '[', '\x7b', ',', ';'], front.getLast? = some c

theorem operandFollows_iff {front : Text} :
    OperandFollows front ↔ Lexeme.isOperandPosition front.getLast? = true := by
  unfold OperandFollows
  cases hlast : front.getLast? with
  | none => simp [List.getLast?_eq_none_iff.1 hlast, Lexeme.isOperandPosition]
  | some c =>
    have hne : front ≠ [] := by
      intro hnil
      simp [hnil] at hlast
    simp [hne, Lexeme.isOperandPosition]

/-! ## Lexemes -/

namespace Text

/-- **A minus sign before a number, where an operand may stand**, is the sign of the number, or it
leaves no trace: it is an operator, and behind it stands the number that was tried. -/
theorem take_lexemesAfter_minus {before : Option Char} {t : Text} (h : opensNumber t = true)
    (hb : Lexeme.isOperandPosition before = true) :
    (lexemesAfter before ('-' :: t)).take 2 =
        [⟨.operator, ['-']⟩, ⟨.number, (Segments.scan t).1.text⟩] ↔
      (Segments.scan t).1.isUnsigned = true := by
  have hscan : Lexeme.scan before '-' t = _ := Lexeme.minus_of_opensNumber h hb
  cases hunsigned : (Segments.scan t).1.isUnsigned with
  | true =>
    rw [hunsigned] at hscan
    obtain ⟨c, u, rfl⟩ := exists_cons_of_opensNumber h
    rw [lexemesAfter_cons hscan, lexemesAfter_cons (Lexeme.scan_of_opensNumber h)]
    exact iff_of_true rfl rfl
  | false =>
    rw [hunsigned] at hscan
    rw [lexemesAfter_cons hscan]
    exact iff_of_false (by simp) Bool.false_ne_true

end Text

/-- What a minus sign starts is a number if it is tried as the sign of one that is not unsigned, and
otherwise an operator. -/
theorem Lexeme.minus_cases {before : Option Char} {t r : Text} {l : Lexeme}
    (h : minus before t = (l, r)) :
    (l.tag = .number ↔ isOperandPosition before = true ∧ opensNumber t = true ∧
      (Segments.scan t).1.isUnsigned = false) ∧
    (l.tag = .number → l.text = '-' :: (Segments.scan t).1.text) := by
  by_cases htried : isOperandPosition before = true ∧ opensNumber t = true
  · obtain ⟨hb, hopens⟩ := htried
    rw [minus_of_opensNumber hopens hb] at h
    cases hunsigned : (Segments.scan t).1.isUnsigned with
    | true =>
      rw [hunsigned] at h
      obtain ⟨rfl, -⟩ := Prod.mk.inj h
      simp
    | false =>
      rw [hunsigned] at h
      obtain ⟨rfl, -⟩ := Prod.mk.inj h
      simp [hb, hopens]
  · rw [minus_of_not (by simpa [and_comm] using htried)] at h
    have htag : l.tag = .operator := (congrArg (·.1.tag) h).symm.trans (tag_operator '-' t)
    have hne : l.tag ≠ .number := by simp [htag]
    exact ⟨iff_of_false hne fun hall => htried ⟨hall.1, hall.2.1⟩, fun ht => absurd ht hne⟩

/-! ## Numbers that are too great -/

theorem Literal.unsigned_of_askedTarget {l : Literal} (h : l.askedTarget = .anyUnsigned) :
    l.negative = true ∧ (l.suffix = .unsigned ∨ l.suffix = .unsignedLong) := by
  unfold askedTarget at h
  cases hf : l.isFloating <;> cases hs : l.suffix <;> cases hn : l.negative <;>
    simp [hf, hs, hn] at h ⊢

theorem Literal.earlyTarget?_ne (l : Literal) : l.earlyTarget? ≠ some .anyUnsigned := by
  unfold earlyTarget?
  split
  · split <;> split <;> simp
  · split
    · simp
    · split <;> simp

/-- Only a negative number with an unsigned suffix is too great for an unsigned type. -/
theorem Form.unsigned_of_overflow {n : Segments} {negative : Bool}
    (h : (Form.number n negative).Proper)
    (hread : readNumber (n.signed negative) = .error (.overflow .anyUnsigned)) :
    negative = true ∧ n.isUnsigned = true := by
  obtain ⟨l, hl, htarget⟩ := Literal.target_of_readNumber hread
  have hasked : l.askedTarget = .anyUnsigned := by
    cases hearly : l.earlyTarget? with
    | none => simpa [hearly] using htarget.symm
    | some early =>
      have hne := l.earlyTarget?_ne
      simp [hearly] at htarget hne
      exact absurd htarget.symm hne
  obtain ⟨hnegative, hsuffix⟩ := Literal.unsigned_of_askedTarget hasked
  obtain ⟨suffix, hspells, hsplit⟩ := Form.split_eq h
  rw [hl] at hsplit
  obtain ⟨-, -, -, rfl⟩ := Segments.reading_eq_ok_iff.1 hsplit.symm
  have hall : ∀ s ∈ suffixes, NumberSuffix.ofText? s = some .unsigned ∨
      NumberSuffix.ofText? s = some .unsignedLong →
      (s.any fun c => c = 'u' || c = 'U') = true := by
    decide
  refine ⟨hnegative, hall n.suffix (Segments.wellFormed_of_scan h.2).suffix ?_⟩
  rw [hspells]
  exact hsuffix.imp (congrArg some) (congrArg some)

/-! ## Sources -/

/-- **What a minus sign starts.** It is the sign of a number exactly if an operand may stand there, a
number follows, and that number is not written as unsigned. If an operand may stand there and a number
follows, the number is written as unsigned exactly if the `-` is an operator of its own before the same
number. And no number of a source is refused because it is negative and unsigned. -/
theorem Text.minus_signs (source : Text) :
    (∀ (k : Nat) (l : Lexeme), source.lexemes[k]? = some l → l.text.head? = some '-' →
      ∃ front rest, front = (source.lexemes.take k).flatMap Lexeme.text ∧
        front ++ '-' :: rest = source ∧
        (l.tag = .number ↔ OperandFollows front ∧ opensNumber rest = true ∧
          ¬EndsUnsigned (Segments.scan rest).1.text) ∧
        (l.tag = .number → l.text = '-' :: (Segments.scan rest).1.text) ∧
        (OperandFollows front → opensNumber rest = true →
          (EndsUnsigned (Segments.scan rest).1.text ↔ (source.lexemes.drop k).take 2 =
            [⟨.operator, ['-']⟩, ⟨.number, (Segments.scan rest).1.text⟩]))) ∧
    ∀ d ∈ source.tokenize.diagnostics, d.defect ≠ .malformedNumber (.overflow .anyUnsigned) := by
  constructor
  · intro k l hl hhead
    obtain ⟨c, rest, hscan⟩ := scan_behind_of_getElem? hl
    rw [Option.or_none] at hscan
    have hsplits := Lexeme.Splits.of_scan hscan
    obtain ⟨u, hu⟩ := hsplits.exists_tail
    obtain rfl : c = '-' := by simpa [hu] using hhead
    have hsource := append_of_getElem? hl
    rw [hsplits.2] at hsource
    obtain ⟨htag, htext⟩ := Lexeme.minus_cases hscan
    refine ⟨_, rest, rfl, hsource, ?_, htext, fun hfront hopens => ?_⟩
    · rw [htag, operandFollows_iff]
      refine and_congr_right fun _ => and_congr_right fun _ => ?_
      rw [← Segments.isUnsigned_scan_iff, Bool.not_eq_true]
    · rw [drop_of_append hsource, take_lexemesAfter_minus hopens (operandFollows_iff.1 hfront),
        Segments.isUnsigned_scan_iff]
  · intro d hd hdefect
    obtain ⟨form, offset, hproper, hmem, hreported⟩ := exists_form_of_mem_diagnostics hd
    have hdefects : .malformedNumber (.overflow .anyUnsigned) ∈ form.defects := by
      rw [← form.map_defect_diagnostics offset, ← hdefect]
      exact List.mem_map_of_mem hreported
    obtain ⟨n, negative, rfl, hread⟩ := Form.eq_number_of_mem_defects hdefects
    obtain ⟨hnegative, hunsigned⟩ := Form.unsigned_of_overflow hproper hread
    -- On its own the lexeme is one number, which an unsigned one behind a minus sign is not.
    have hsigned := (Form.lexemes_number_iff hproper).1 (lexemes_of_mem hmem) hnegative
    rw [hunsigned] at hsigned
    cases hsigned

/-- An unsigned number behind a minus sign, in base sixteen and in parentheses. -/
theorem Text.minus_signs_unsigned :
    (Text.lexemes "(-0x1fLU)".toList)[1]? = some ⟨.operator, ['-']⟩ ∧
      ∃ front rest, front = ['('] ∧ front ++ '-' :: rest = "(-0x1fLU)".toList ∧
        ((Text.lexemes "(-0x1fLU)".toList).drop 1).take 2 =
          [⟨.operator, ['-']⟩, ⟨.number, (Segments.scan rest).1.text⟩] := by
  have hl : (Text.lexemes "(-0x1fLU)".toList)[1]? = some ⟨.operator, ['-']⟩ := by decide +kernel
  have hfront : ((Text.lexemes "(-0x1fLU)".toList).take 1).flatMap Lexeme.text = ['('] := by
    decide +kernel
  obtain ⟨front, rest, hfirst, hsource, -, -, hunsigned⟩ :=
    (minus_signs "(-0x1fLU)".toList).1 1 _ hl rfl
  rw [hfront] at hfirst
  subst hfirst
  obtain rfl : rest = "0x1fLU)".toList := by simpa using hsource
  refine ⟨hl, _, _, rfl, hsource, (hunsigned (.inr ⟨'(', by decide, rfl⟩) (by decide)).1 ?_⟩
  exact ⟨"0x1f".toList, "LU".toList, by decide +kernel, by decide⟩

end LesTokens
