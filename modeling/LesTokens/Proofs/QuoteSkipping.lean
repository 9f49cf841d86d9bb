/-
Looking for the closing quote by bytes. A cursor jumps to the first byte that is the quote, a
backslash or a line feed, or to the first carriage return if that is nearer, and goes on from there
(`Cursor.skipQuoted`). All these are characters of one byte, so it stops where reading one character
after another finds the first character that is not ordinary (`Cursor.skipToQuote_eq`), and from
there it passes what reading passes (`Cursor.skipQuoted_eq`).

What stands before the quote that closes a form has its backslashes and quotes in pairs
(`QuotedBody.Paired`).

**`Text.quotes_skipped`**: a cursor passes the same body as reading does, and the contents of closed
forms are paired.
-/
import LesTokens.Proofs.BestEffort
import LesTokens.Proofs.Bytes

namespace LesTokens

/-! ## Pairs -/

namespace QuotedBody

/-- A content in which each backslash is paired with the character after it: none is left over at
the end, and each quote stands behind one that is left over there. -/
structure Paired (quote : Char) (content : Text) : Prop where
  backslashes : endsUnpaired content = false
  quotes : ∀ u v, content = u ++ quote :: v → endsUnpaired u = true

/-- **What can be closed is paired.** -/
theorem Content.paired {quote : Char} (hb : '\\' ≠ quote) {content : Text}
    (h : Content quote true content) : Paired quote content := by
  induction h with
  | nil => exact ⟨by decide, by simp⟩
  | @plain c t hc ht ih =>
    have hplain : ¬c = quote ∧ ¬c = '\\' ∧ isLineEnd c = false := by
      simpa [isPlain, and_assoc] using hc
    have hskip (u : Text) : endsUnpaired (c :: u) = endsUnpaired u :=
      endsUnpaired_append (endsUnpaired_singleton hplain.2.1) u
    refine ⟨(hskip t).trans ih.backslashes, fun u v e => ?_⟩
    cases u with
    | nil => exact absurd (List.cons.inj e).1 hplain.1
    | cons d u =>
      simp only [List.cons_append, List.cons.injEq] at e
      rw [← e.1]
      exact (hskip u).trans (ih.quotes u v e.2)
  | @pair c t hc ht ih =>
    have hskip (u : Text) : endsUnpaired ('\\' :: c :: u) = endsUnpaired u :=
      endsUnpaired_append (endsUnpaired_pair c) u
    refine ⟨(hskip t).trans ih.backslashes, fun u v e => ?_⟩
    cases u with
    | nil => exact absurd (List.cons.inj e).1 hb
    | cons d u =>
      simp only [List.cons_append, List.cons.injEq] at e
      obtain ⟨rfl, e⟩ := e
      cases u with
      | nil => decide
      | cons d u =>
        simp only [List.cons_append, List.cons.injEq] at e
        rw [← e.1]
        exact (hskip u).trans (ih.quotes u v e.2)
  | lone h => cases h

end QuotedBody

/-! ## Jumping by bytes -/

namespace Cursor

/-- The cursor between two parts of a source. -/
def between (front rest : Text) : Cursor := ⟨front ++ rest, front.size⟩

variable (front : Text)

theorem rest_between (t : Text) : (between front t).rest = t := Text.dropBytes_size_append front t

theorem advance_between (u t : Text) :
    (between front (u ++ t)).advance u.size = between (front ++ u) t := by
  simp [between, advance]

theorem toEnd_between (t : Text) : (between front t).toEnd = between (front ++ t) [] := by
  simp [between, toEnd]

theorem isAtEnd_between (t : Text) : (between front t).isAtEnd = t.isEmpty := by
  cases t with
  | nil => simp [between, isAtEnd]
  | cons c t =>
    have hpos := c.utf8Size_pos
    simp only [between, isAtEnd, Text.size_append, Text.size_cons, List.isEmpty_cons,
      decide_eq_false_iff_not]
    omega

theorem current_between (t : Text) : (between front t).current = t.bytes.headD 0 := by
  have hget : (front ++ t).bytes[front.size + 0]? = t.bytes[0]? := by
    rw [Nat.add_zero, Text.bytes_append, ← Text.length_bytes,
      List.getElem?_append_right (Nat.le_refl _), Nat.sub_self]
  rw [current, peek, between, hget]
  cases t.bytes <;> rfl

theorem advanceChar_between (c : Char) (t : Text) :
    (between front (c :: t)).advanceChar = between (front ++ [c]) t := by
  rw [advanceChar, rest_between]
  exact advance_between front [c] t

theorem advance_one_between {c : Char} (hc : c.toNat < 128) (t : Text) :
    (between front (c :: t)).advance 1 = between (front ++ [c]) t := by
  have hsize : Text.size [c] = 1 := Text.utf8Size_of_lt hc
  rw [← hsize]
  exact advance_between front [c] t

theorem earliest_findIdx? (p q : UInt8 → Bool) (bytes : List UInt8) :
    earliest (bytes.findIdx? p) (bytes.findIdx? q) = bytes.findIdx? fun b => p b || q b := by
  induction bytes with
  | nil => rfl
  | cons b bytes ih =>
    rw [List.findIdx?_cons, List.findIdx?_cons, List.findIdx?_cons, ← ih]
    cases p b <;> cases q b <;> cases bytes.findIdx? p <;> cases bytes.findIdx? q <;>
      simp [earliest]

variable {quote : Char}

theorem isQuote_excludes (hq : isQuote quote = true) : quote.toNat < 128 ∧ quote ≠ '\x00' ∧
    '\\' ≠ quote ∧ isLineEnd quote = false := by
  have hquote : quote = '\x22' ∨ quote = '\x27' ∨ quote = '\x60' := by simpa [isQuote] using hq
  rcases hquote with rfl | rfl | rfl <;> decide

theorem ofBytes_stops (hq : quote.toNat < 128) : Text.OfBytes (fun c => !QuotedBody.isPlain quote c)
    (fun b => (b = UInt8.ofNat quote.toNat || b = 0x5C || b = 0x0A) || b = 0x0D) := by
  have hunion := (((Text.OfBytes.eq hq).union (.eq (d := '\\') (by decide))).union
    (.eq (d := '\n') (by decide))).union (.eq (d := '\r') (by decide))
  have hstops : (fun c => !QuotedBody.isPlain quote c) =
      fun c => (c = quote || c = '\\' || c = '\n') || c = '\r' := by
    funext c
    simp only [QuotedBody.isPlain, isLineEnd, Bool.not_not, Bool.or_assoc]
  rw [hstops]
  exact hunion

/-- **The nearer of the two bytes is the first character that is not ordinary.** -/
theorem skipToQuote_eq (hq : quote.toNat < 128) (t : Text) :
    (between front t).skipToQuote (UInt8.ofNat quote.toNat) =
      ((Text.bytes (t.dropWhile (QuotedBody.isPlain quote))).headD 0,
        between (front ++ t.takeWhile (QuotedBody.isPlain quote))
          (t.dropWhile (QuotedBody.isPlain quote))) := by
  have hfind := (ofBytes_stops hq).findIdx?_bytes t
  simp only [Bool.not_not] at hfind
  have hsplit := List.takeWhile_append_dropWhile (p := QuotedBody.isPlain quote) (l := t)
  unfold skipToQuote
  simp only [rest_between, earliest_findIdx?]
  rw [hfind]
  split
  · rename_i n hn
    split at hn
    · cases hn
    · have hstop : (between front t).advance n =
          between (front ++ t.takeWhile (QuotedBody.isPlain quote))
            (t.dropWhile (QuotedBody.isPlain quote)) := by
        rw [← advance_between, hsplit, Option.some.inj hn]
      rw [hstop, current_between]
  · rename_i hn
    split at hn
    · rename_i hend
      rw [hend, List.append_nil] at hsplit
      rw [hend, hsplit, toEnd_between]
      rfl
    · cases hn

theorem skipQuoted_of_eq {c stop : Cursor} {q b : UInt8} (h : c.skipToQuote q = (b, stop)) :
    c.skipQuoted q =
      if b = 0x5C then
        if ByteClass.lineEnd.holds (stop.advance 1).current || (stop.advance 1).isAtEnd then
          (stop.advance 1).skipQuoted q
        else (stop.advance 1).advanceChar.skipQuoted q
      else if b = q then (true, stop.advance 1)
      else (false, stop) := by
  rw [skipQuoted]
  split
  rename_i h'
  rw [h, Prod.mk.injEq] at h'
  obtain ⟨rfl, rfl⟩ := h'
  rfl

theorem holds_current_between (t : Text) :
    ByteClass.lineEnd.holds (between front t).current = opensWith isLineEnd t := by
  have hclass : Text.OfBytes isLineEnd ByteClass.lineEnd.holds := by
    refine ByteClass.ofBytes (k := .lineEnd) fun c hc => ?_
    rw [Bool.eq_false_iff]
    intro hl
    rcases isLineEnd_iff.1 (hl : isLineEnd c = true) with rfl | rfl <;> exact absurd hc (by decide)
  rw [current_between]
  cases t with
  | nil => decide
  | cons c t =>
    rw [opensWith_cons, Text.bytes_cons]
    rcases hclass.encode_cases c with ⟨hp, he, hb⟩ | ⟨hp, hb⟩
    · rw [he, hp]
      exact hb
    · obtain ⟨b, bs, he⟩ := Text.exists_cons_utf8EncodeChar c
      rw [he, hp]
      exact hb b (by simp [he])

/-! ### From one stop to the next -/

variable {t after : Text}

theorem skipQuoted_quote (hq : isQuote quote = true)
    (h : t.dropWhile (QuotedBody.isPlain quote) = quote :: after) :
    (between front t).skipQuoted (UInt8.ofNat quote.toNat) =
      (true, between (front ++ (t.takeWhile (QuotedBody.isPlain quote) ++ [quote])) after) := by
  obtain ⟨hlt, -, hb, -⟩ := isQuote_excludes hq
  have hbyte : ¬UInt8.ofNat quote.toNat = 0x5C :=
    mt (Text.ofNat_toNat_inj hlt (d := '\\') (by decide)).1 (Ne.symm hb)
  rw [skipQuoted_of_eq (skipToQuote_eq front hlt t), h, Text.headD_bytes_of_lt hlt, if_neg hbyte,
    if_pos rfl, advance_one_between _ hlt, List.append_assoc]

theorem skipQuoted_stop (hq : isQuote quote = true)
    (h : t.dropWhile (QuotedBody.isPlain quote) = after)
    (hstop : after = [] ∨ opensWith isLineEnd after = true) :
    (between front t).skipQuoted (UInt8.ofNat quote.toNat) =
      (false, between (front ++ t.takeWhile (QuotedBody.isPlain quote)) after) := by
  obtain ⟨hlt, hnul, hb, hl⟩ := isQuote_excludes hq
  have hbyte : ¬(Text.bytes after).headD 0 = 0x5C ∧
      ¬(Text.bytes after).headD 0 = UInt8.ofNat quote.toNat := by
    rcases hstop with rfl | hstop
    · exact ⟨by decide, mt (Text.ofNat_toNat_inj (c := '\x00') (by decide) hlt).1 (Ne.symm hnul)⟩
    · cases after with
      | nil => cases hstop
      | cons c after =>
        have hc : isLineEnd c = true := hstop
        have hcl : c.toNat < 128 := by
          rcases isLineEnd_iff.1 hc with rfl | rfl <;> decide
        rw [Text.headD_bytes_of_lt hcl]
        refine ⟨mt (Text.ofNat_toNat_inj hcl (d := '\\') (by decide)).1 ?_,
          mt (Text.ofNat_toNat_inj hcl hlt).1 ?_⟩
        · exact ne_of_class hc (by decide)
        · exact ne_of_class hc hl
  rw [skipQuoted_of_eq (skipToQuote_eq front hlt t), h, if_neg hbyte.1, if_neg hbyte.2]

theorem skipQuoted_backslash (hq : isQuote quote = true)
    (h : t.dropWhile (QuotedBody.isPlain quote) = '\\' :: after) :
    (between front t).skipQuoted (UInt8.ofNat quote.toNat) =
      let next := between (front ++ (t.takeWhile (QuotedBody.isPlain quote) ++ ['\\'])) after
      if opensWith isLineEnd after || after.isEmpty then
        next.skipQuoted (UInt8.ofNat quote.toNat)
      else next.advanceChar.skipQuoted (UInt8.ofNat quote.toNat) := by
  have hbyte : (Text.bytes ('\\' :: after)).headD 0 = 0x5C := rfl
  rw [skipQuoted_of_eq (skipToQuote_eq front (isQuote_excludes hq).1 t), h, if_pos hbyte,
    advance_one_between _ (by decide), holds_current_between, isAtEnd_between, List.append_assoc]

/-- **Jumping from byte to byte passes the body that is scanned.** -/
theorem skipQuoted_eq (hq : isQuote quote = true) (t : Text) :
    (between front t).skipQuoted (UInt8.ofNat quote.toNat) =
      ((QuotedBody.scan quote t).closed,
        between (front ++ (QuotedBody.scan quote t).text) (QuotedBody.scan quote t).rest) := by
  -- Behind a backslash that ends the body the cursor looks once more, and does not move.
  have hlast (front : Text) {u : Text} (hu : u = [] ∨ opensWith isLineEnd u = true) :
      (between front u).skipQuoted (UInt8.ofNat quote.toNat) = (false, between front u) := by
    have hplain : opensWith (QuotedBody.isPlain quote) u = false := by
      rcases hu with rfl | hu
      · rfl
      · cases u with
        | nil => rfl
        | cons c u => simp [opensWith, QuotedBody.isPlain, show isLineEnd c = true from hu]
    obtain ⟨htake, hdrop⟩ := takeWhile_of_not_opensWith hplain
    rw [skipQuoted_stop front hq hdrop hu, htake, List.append_nil]
  fun_induction QuotedBody.scan quote t generalizing front with
  | case1 t plain h => exact skipQuoted_stop front hq h (.inl rfl)
  | case2 t plain after h => exact skipQuoted_quote front hq h
  | case3 t plain _ _ h =>
    rw [skipQuoted_backslash front hq h]
    exact hlast _ (.inl rfl)
  | case4 t plain d after hd _ _ h =>
    rw [skipQuoted_backslash front hq h]
    simp only [opensWith_cons, hd, Bool.true_or, if_true]
    exact hlast _ (.inr hd)
  | case5 t plain d after hd _ _ h ih =>
    rw [skipQuoted_backslash front hq h]
    simp only [opensWith_cons, hd, List.isEmpty_cons, Bool.or_false, advanceChar_between, ih,
      QuotedBody.prepend, List.append_assoc, plain]
    rfl
  | case6 t plain c after h hne hb =>
    -- What stopped the search is a line ending, being neither the quote nor a backslash.
    have hs := opensWith_dropWhile (QuotedBody.isPlain quote) t
    have hc : isLineEnd c = true := by simpa [h, opensWith, QuotedBody.isPlain, hne, hb] using hs
    exact skipQuoted_stop front hq h (.inr hc)

end Cursor

/-! ## Closed forms -/

namespace Lexeme

theorem tag_enclosed (closed unclosed : Tag) (opener closer t : Text) :
    (enclosed closed unclosed opener closer t).1.tag = closed ∨
      (enclosed closed unclosed opener closer t).1.tag = unclosed := by
  unfold enclosed
  split
  · exact .inl rfl
  · exact .inr rfl

/-- A lexeme with the tag of a closed form between quotes, and with its opener, is scanned as that
form, unless it is a character literal that starts with two quotes. -/
theorem scan_of_tag {kind : QuotedKind} {before : Option Char} {c : Char} {t u r : Text}
    {l : Lexeme} (ht : kind.opener ++ t = c :: u) (hscan : scan before c u = (l, r))
    (htag : l.tag = kind.tag true) (hc : kind = .character → opensWith (· = '\x27') t = false) :
    quotedForm (kind.tag true) (kind.tag false) kind.opener kind.quote t = (l, r) := by
  rw [← hscan]
  refine (scan_opener kind before ht ?_).symm
  cases kind with
  | string =>
    rw [Bool.eq_false_iff]
    intro hpair
    obtain ⟨d, d', w, rfl, hd, hd'⟩ := exists_of_opensPair hpair
    obtain rfl : d = '\x22' := by simpa using hd
    obtain rfl : d' = '\x22' := by simpa using hd'
    obtain ⟨rfl, rfl⟩ : '\x22' = c ∧ '\x22' :: '\x22' :: w = u := List.cons.inj ht
    -- Three quotes start a form of another tag.
    have htriple : doubleQuote ('\x22' :: '\x22' :: w) = (l, r) :=
      (Scanned.eq (.doubleQuote rfl rfl)).symm.trans hscan
    have hother := tag_enclosed .tripleQuote .unterminatedTripleQuote ['\x22', '\x22', '\x22']
      ['\x22', '\x22', '\x22'] w
    rw [show enclosed .tripleQuote .unterminatedTripleQuote ['\x22', '\x22', '\x22']
      ['\x22', '\x22', '\x22'] w = (l, r) from htriple, htag] at hother
    rcases hother with h | h <;> cases h
  | character => exact hc rfl
  | backQuoted | ident | symbol | stringSymbol => rfl

/-- **The content of a closed form is paired.** -/
theorem paired_of_closed {kind : QuotedKind} {before : Option Char} {c : Char} {u r content : Text}
    {l : Lexeme} (hscan : scan before c u = (l, r)) (htag : l.tag = kind.tag true)
    (htext : l.text = kind.opener ++ (content ++ [kind.quote]))
    (hc : kind = .character → ¬['\x27', '\x27'] <+: l.text) :
    QuotedBody.Paired kind.quote content := by
  have hu : kind.opener ++ (content ++ [kind.quote] ++ r) = c :: u := by
    rw [← List.append_assoc, ← htext]
    exact (Splits.of_scan hscan).2
  have hform := scan_of_tag hu hscan htag fun hk => by
    subst hk
    rw [Bool.eq_false_iff]
    intro hopens
    refine hc rfl ?_
    rw [htext]
    cases content with
    | nil => exact List.prefix_refl _
    | cons d content =>
      obtain rfl : d = '\x27' := by simpa [opensWith] using hopens
      exact ⟨content ++ ['\x27'], rfl⟩
  obtain ⟨content', h, he⟩ := QuotedBody.exists_content kind.quote (content ++ [kind.quote] ++ r)
  simp only [quotedForm, QuotedBody.scan_eq_read, Prod.mk.injEq] at hform
  rw [← hform.1] at htag htext
  have hclosed : (QuotedBody.read kind.quote (content ++ [kind.quote] ++ r)).closed = true := by
    by_contra hopen
    rw [if_neg hopen] at htag
    cases kind <;> cases htag
  rw [hclosed] at h he
  have hcontent := List.append_cancel_left htext
  rw [he] at hcontent
  obtain rfl : content' = content := List.append_cancel_right hcontent
  exact h.paired kind.quote_ne_backslash

end Lexeme

/-! ## Sources -/

/-- **Jumping to the closing quote is reading up to it.** From any boundary of a source a cursor
passes the body that is read one character after another, with the same answer, and so does the
scanner. The contents of closed forms have their backslashes and quotes in pairs; an empty character
literal, which takes the rest of its line, is not closed. -/
theorem Text.quotes_skipped (source : Text) :
    (∀ (offset : Nat) (front rest : Text), source.splitAt? offset = some (front, rest) →
      ∀ quote, isQuote quote = true →
        (⟨source, offset⟩ : Cursor).skipQuoted (UInt8.ofNat quote.toNat) =
          ((QuotedBody.read quote rest).closed,
            ⟨source, offset + (QuotedBody.read quote rest).text.size⟩) ∧
        QuotedBody.scan quote rest = QuotedBody.read quote rest ∧
        ((QuotedBody.read quote rest).closed = true → ∃ content,
          (QuotedBody.read quote rest).text = content ++ [quote] ∧
            QuotedBody.Paired quote content)) ∧
    ∀ (k : Nat) (l : Lexeme), source.lexemes[k]? = some l →
      ∀ (kind : QuotedKind) (content : Text), l.tag = kind.tag true →
        l.text = kind.opener ++ (content ++ [kind.quote]) →
        (kind = .character → ¬['\x27', '\x27'] <+: l.text) →
        QuotedBody.Paired kind.quote content := by
  constructor
  · intro offset front rest hsplit quote hq
    obtain ⟨rfl, rfl⟩ := append_of_splitAt? hsplit
    have hskip := Cursor.skipQuoted_eq front hq rest
    have happend := QuotedBody.scan_append quote rest
    rw [QuotedBody.scan_eq_read] at hskip happend
    refine ⟨?_, QuotedBody.scan_eq_read quote rest, fun hclosed => ?_⟩
    · rw [Cursor.between, Cursor.between, List.append_assoc, happend, size_append] at hskip
      exact hskip
    · obtain ⟨content, h, he⟩ := QuotedBody.exists_content quote rest
      rw [hclosed] at h he
      exact ⟨content, he, h.paired (Cursor.isQuote_excludes hq).2.2.1⟩
  · intro k l hl kind content htag htext hc
    obtain ⟨before, c, u, hscan⟩ := scan_of_getElem? hl
    exact Lexeme.paired_of_closed hscan htag htext hc

/-- Behind a quote an escaped one and a pair of backslashes; the quote behind them closes the
string. -/
theorem Text.quotes_skipped_pairs :
    (⟨"=\"é\\\"\\\\\"x".toList, 2⟩ : Cursor).skipQuoted 0x22 =
        (true, ⟨"=\"é\\\"\\\\\"x".toList, 9⟩) ∧
      (Text.lexemes "=\"é\\\"\\\\\"x".toList)[1]? = some ⟨.string, "\"é\\\"\\\\\"".toList⟩ ∧
      QuotedBody.Paired '\x22' "é\\\"\\\\".toList := by
  have hsplit : Text.splitAt? 2 "=\"é\\\"\\\\\"x".toList =
      some ("=\"".toList, "é\\\"\\\\\"x".toList) := by decide +kernel
  have hl : (Text.lexemes "=\"é\\\"\\\\\"x".toList)[1]? =
      some ⟨.string, "\"é\\\"\\\\\"".toList⟩ := by decide +kernel
  obtain ⟨hskipped, hpaired⟩ := quotes_skipped "=\"é\\\"\\\\\"x".toList
  obtain ⟨hskip, -, -⟩ := hskipped 2 _ _ hsplit '\x22' (by decide)
  have hread : QuotedBody.read '\x22' "é\\\"\\\\\"x".toList =
      ⟨"é\\\"\\\\\"".toList, true, ['x']⟩ := by decide +kernel
  rw [hread] at hskip
  exact ⟨hskip, hl, hpaired 1 _ hl .string _ rfl rfl (by simp)⟩

end LesTokens
