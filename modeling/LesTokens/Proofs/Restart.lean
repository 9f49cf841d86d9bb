/-
A scanner that starts in the middle of a source. All that it knows of the text before it is the
character it stands behind, and only a `#!` and a `-` at the very start ask for that. So from any
boundary between characters it gives what scanning the rest of the source as a source of its own
gives (**`Text.extents_restart`**), those two starts apart.

The character before matters as an operand position, which its last byte tells
(`isOperandPosition_of_mem`): no byte of a longer character is one of the bytes asked for.
-/
import LesTokens.Proofs.Bytes
import LesTokens.Proofs.Forms
import LesTokens.Proofs.LineContainment
import LesTokens.Proofs.Tiling

namespace LesTokens

/-! ## The byte before -/

/-- The bytes behind which an operand may stand: a blank, a line ending, an opening bracket or a
separator. -/
def operandBytes : List UInt8 := [0x20, 0x09, 0x0A, 0x0D, 0x28, 0x5B, 0x7B, 0x2C, 0x3B]

/-- The last byte of a character is the character itself or at least 128. -/
theorem getLast?_utf8EncodeChar (c : Char) :
    (c.toNat < 128 ∧ (String.utf8EncodeChar c).getLast? = some (UInt8.ofNat c.toNat)) ∨
      ∃ b, (String.utf8EncodeChar c).getLast? = some b ∧ 128 ≤ b.toNat := by
  by_cases hc : c.toNat < 128
  · exact .inl ⟨hc, by rw [Text.utf8EncodeChar_of_lt hc]; rfl⟩
  · obtain ⟨b, bs, he⟩ := Text.exists_cons_utf8EncodeChar c
    have hlast : (String.utf8EncodeChar c).getLast? = some ((b :: bs).getLast (by simp)) := by
      rw [he, List.getLast?_eq_some_getLast]
    exact .inr ⟨_, hlast,
      Text.le_of_mem_utf8EncodeChar (Nat.le_of_not_lt hc) _ (List.mem_of_getLast? hlast)⟩

theorem isOperandPosition_of_mem {c : Char} {b : UInt8}
    (h : (String.utf8EncodeChar c).getLast? = some b) (hb : b ∈ operandBytes) :
    Lexeme.isOperandPosition (some c) = true := by
  have hall : ∀ b ∈ operandBytes, b.toNat < 128 ∧
      Lexeme.isOperandPosition (some (Char.ofNat b.toNat)) = true := by decide +kernel
  obtain ⟨hlow, hop⟩ := hall b hb
  rcases getLast?_utf8EncodeChar c with ⟨hc, he⟩ | ⟨b', he, hhigh⟩
  · rw [he, Option.some.injEq] at h
    have hbyte : b.toNat = c.toNat := by
      rw [← h, UInt8.toNat_ofNat']
      omega
    rwa [hbyte, Char.ofNat_toNat] at hop
  · rw [he, Option.some.injEq] at h
    rw [h] at hhigh
    omega

theorem Cursor.previous_of_splitAt? {source before after : Text} {p : Nat} {c : Char}
    (h : source.splitAt? p = some (before, after)) (hc : before.getLast? = some c) :
    (String.utf8EncodeChar c).getLast? = some (⟨source, p⟩ : Cursor).previous := by
  obtain ⟨hsource, hsize⟩ := Text.append_of_splitAt? h
  obtain ⟨front, rfl⟩ : ∃ front : Text, before = front ++ [c] := List.getLast?_eq_some_iff.1 hc
  have hlen := String.length_utf8EncodeChar c
  have hpos := c.utf8Size_pos
  have hp : p = front.bytes.length + c.utf8Size := by
    rw [← hsize, Text.size_append, Text.length_bytes]
    simp
  have hbytes : source.bytes = front.bytes ++ (String.utf8EncodeChar c ++ after.bytes) := by
    rw [← hsource, Text.bytes_append, Text.bytes_append, Text.bytes_singleton, List.append_assoc]
  obtain ⟨q, rfl⟩ : ∃ q, p = q + 1 := ⟨p - 1, by omega⟩
  have hq : q - front.bytes.length = (String.utf8EncodeChar c).length - 1 := by omega
  have hget : source.bytes[q]? = (String.utf8EncodeChar c).getLast? := by
    rw [hbytes, List.getElem?_append_right (by omega), List.getElem?_append_left (by omega), hq,
      List.getLast?_eq_getElem?]
  cases hlast : (String.utf8EncodeChar c).getLast? with
  | none =>
    rw [List.getLast?_eq_none_iff] at hlast
    rw [hlast, List.length_nil] at hlen
    omega
  | some b =>
    rw [hlast] at hget
    simp [Cursor.previous, hget]

/-! ## The calls of a scanner -/

theorem Lexeme.tag_ne_endOfInput {before : Option Char} {c : Char} {t r : Text} {l : Lexeme}
    (h : scan before c t = (l, r)) : l.tag ≠ .endOfInput := by
  obtain ⟨form, hform, hproper, -⟩ := exists_form before c t
  rw [h] at hform
  obtain rfl : l = form.lexeme := hform.symm
  cases form with
  | faultless tag text =>
    rintro rfl
    exact absurd hproper Bool.false_ne_true
  | quoted kind content closed => cases kind <;> cases closed <;> simp [Form.lexeme, QuotedKind.tag]
  | comment body closed | tripleQuoted quote body closed => cases closed <;> simp [Form.lexeme]
  | _ => simp [Form.lexeme]

namespace ByteScanner

/-- What the calls of a scanner give: some extents, then the end of the input, over and over. -/
structure Gives (s : ByteScanner) (extents : List Extent) : Prop where
  call : ∀ k, s.extentAt k = extents[k]?.getD ⟨.endOfInput, 0⟩
  tag : ∀ e ∈ extents, e.tag ≠ .endOfInput

theorem after_succ_left (s : ByteScanner) (k : Nat) : s.after (k + 1) = s.next.2.after k := by
  induction k with
  | zero => rfl
  | succ k ih => rw [after, ih, after]

theorem Gives.nil {s : ByteScanner} (h : s.next = (⟨.endOfInput, 0⟩, s)) : s.Gives [] := by
  have hstay (k : Nat) : s.after k = s := by
    induction k with
    | zero => rfl
    | succ k ih => rw [after, ih, h]
  refine ⟨fun k => ?_, by simp⟩
  rw [extentAt, hstay, h]
  rfl

theorem Gives.cons {s : ByteScanner} {e : Extent} {extents : List Extent} (he : s.next.1 = e)
    (htag : e.tag ≠ .endOfInput) (h : s.next.2.Gives extents) : s.Gives (e :: extents) := by
  refine ⟨fun k => ?_, fun e' hm => ?_⟩
  · cases k with
    | zero => exact he
    | succ k =>
      rw [extentAt, after_succ_left, List.getElem?_cons_succ]
      exact h.call k
  · rcases List.mem_cons.1 hm with rfl | hm
    · exact htag
    · exact h.tag e' hm

/-- A scanner between two characters gives the extents of the lexemes ahead. -/
theorem gives_lexemesAfter (position : Nat) (before : Option Char) (t : Text) :
    (⟨0, position, before, t⟩ : ByteScanner).Gives
      ((t.lexemesAfter before).map Lexeme.extent) := by
  induction before, t using Text.lexing_induct generalizing position with
  | nil before =>
    rw [Text.lexemesAfter_nil]
    exact .nil (next_of_none (Scanner.next?_nil position before))
  | step before c t l r h ih =>
    have hnext := next_of_some (Scanner.next?_cons h position)
    rw [Text.lexemesAfter_cons h, List.map_cons]
    refine .cons (by rw [hnext]) (Lexeme.tag_ne_endOfInput h) ?_
    rw [hnext]
    exact ih (position + l.text.size)

theorem startFrom_of_splitAt? (passed : Nat) (previous : Option Char) {t before after : Text}
    {offset : Nat} (h : t.splitAt? offset = some (before, after)) :
    startFrom passed previous t offset =
      ⟨0, passed + offset, before.getLast?.or previous, after⟩ := by
  fun_induction startFrom passed previous t offset generalizing before with
  | case1 passed previous offset =>
    cases offset with
    | zero =>
      rw [Text.splitAt?_zero, Option.some.injEq, Prod.mk.injEq] at h
      obtain ⟨rfl, rfl⟩ := h
      rfl
    | succ offset => simp [Text.splitAt?] at h
  | case2 passed previous c t =>
    rw [Text.splitAt?_zero, Option.some.injEq, Prod.mk.injEq] at h
    obtain ⟨rfl, rfl⟩ := h
    rfl
  | case3 passed previous c t offset hc ih =>
    rw [Text.splitAt?_cons t hc, Option.map_eq_some_iff] at h
    obtain ⟨⟨before', after'⟩, hsplit, heq⟩ := h
    simp only [Prod.mk.injEq] at heq
    obtain ⟨rfl, rfl⟩ := heq
    have hlast : (c :: before').getLast?.or previous = before'.getLast?.or (some c) := by
      cases before' with
      | nil => rfl
      | cons d before' => rw [List.getLast?_cons_cons, List.getLast?_cons]; rfl
    have hoffset : passed + c.utf8Size + (offset + 1 - c.utf8Size) = passed + (offset + 1) := by
      omega
    rw [ih hsplit, hlast, hoffset]
  | case4 passed previous c t offset hc => simp [Text.splitAt?, hc] at h

end ByteScanner

/-! ## Starting at a boundary -/

/-- **From any boundary between characters a scanner gives what the rest of the source gives on its
own**, unless the rest starts with `#!`, or with a `-` that does not stand behind an operand
byte. -/
theorem Text.extents_restart {source before after : Text} {p : Nat}
    (h : source.splitAt? p = some (before, after)) (hs : 0 < p → ¬['#', '!'] <+: after)
    (hm : 0 < p → after.head? = some '-' → (⟨source, p⟩ : Cursor).previous ∈ operandBytes) :
    (ByteScanner.start source p).Gives after.extents := by
  have hstart := ByteScanner.startFrom_of_splitAt? 0 none h
  rw [Option.or_none, Nat.zero_add] at hstart
  have hlexemes : after.lexemesAfter before.getLast? = after.lexemes := by
    cases hlast : before.getLast? with
    | none => rfl
    | some c =>
      have hp : 0 < p := by
        rw [← (append_of_splitAt? h).2]
        refine size_pos ?_
        rintro rfl
        simp at hlast
      refine lexemesAfter_eq_lexemes (fun ht => absurd ht (hs hp)) fun ht => ?_
      exact isOperandPosition_of_mem (Cursor.previous_of_splitAt? h hlast) (hm hp ht)
  rw [ByteScanner.start, hstart, extents, ← hlexemes]
  exact ByteScanner.gives_lexemesAfter p before.getLast? after

/-- A negative number behind a blank that stands behind a longer character. -/
theorem Text.extents_restart_negative :
    (ByteScanner.start ['é', ' ', '-', '1'] 3).Gives (Text.extents ['-', '1']) := by
  have h : splitAt? 3 ['é', ' ', '-', '1'] = some (['é', ' '], ['-', '1']) := by
    decide +kernel
  have hs : ¬['#', '!'] <+: ['-', '1'] := by decide
  have hm : (⟨['é', ' ', '-', '1'], 3⟩ : Cursor).previous ∈ operandBytes := by decide +kernel
  exact extents_restart h (fun _ => hs) fun _ _ => hm

end LesTokens
