/-
What a lexeme depends on outside itself. Behind it there may stand any rest that follows it in
place of its own (`Lexeme.Follows`): nothing, its own rest with more text after two characters or
after a quote, or its own rest with another line after it. Before it, only a `#!` and a `-` ask what
stands there.

Every kind of lexeme settles (`Settles`): where it is scanned before one rest it is scanned before
another. **`Lexeme.scan_replace`** says so of them all, and `Lexeme.scan_before`,
`Lexeme.scan_alone` that the text before does not matter either.
-/
import LesTokens.Proofs.Delimited
import LesTokens.Proofs.LineEndings
import LesTokens.Proofs.NumberCharacters

namespace LesTokens.Lexeme

/-- The rests that may follow a lexeme in place of a rest `r`. A line may come after `r` unless the
text has ended one already, or the lexeme is open over many lines. -/
inductive Follows (l : Lexeme) (r : Text) : Text → Prop
  | cut : Follows l r []
  | more (h : 2 ≤ r.length) (b : Text) : Follows l r (r ++ b)
  | quote (h : r = ['\x22'] ∨ r = ['\x60']) (b : Text) : Follows l r (r ++ b)
  | line (hl : ∀ c ∈ (l.text ++ r).getLast?, isLineEnd c = false)
      (hc : l.tag ≠ .unterminatedBlockComment ∧ l.tag ≠ .unterminatedTripleQuote) (b : Text) :
      Follows l r (r ++ '\n' :: b)

namespace Follows

variable {l : Lexeme} {r r' : Text}

theorem ahead (h : Follows l r r') : Ahead r r' := by
  cases h with
  | cut => exact .nil r
  | more h b => exact .more h b
  | quote h b => rcases h with rfl | rfl <;> exact .final (by decide) _ _
  | line _ _ b => exact .line r b

theorem eq_nil_or_prefix (h : Follows l r r') : r' = [] ∨ r <+: r' := by
  cases h with
  | cut => exact .inl rfl
  | more h b | quote h b => exact .inr ⟨b, rfl⟩
  | line _ _ b => exact .inr ⟨_, rfl⟩

theorem stop (h : Follows l r r') (hr : r = [] ∨ opensWith isLineEnd r = true) :
    r' = [] ∨ opensWith isLineEnd r' = true := by
  cases h with
  | cut => exact .inl rfl
  | more h b =>
    rcases hr with rfl | hr
    · simp at h
    · exact .inr (opensWith_append hr b)
  | quote h b => rcases h with rfl | rfl <;> exact absurd hr (by decide)
  | line _ _ b =>
    rcases hr with rfl | hr
    · exact .inr rfl
    · exact .inr (opensWith_append hr _)

/-- Behind a lexeme that is open over many lines nothing can follow. -/
theorem eq_nil (h : Follows l [] r')
    (hl : l.tag = .unterminatedBlockComment ∨ l.tag = .unterminatedTripleQuote) : r' = [] := by
  cases h with
  | cut => rfl
  | more h b | quote h b => simp at h
  | line _ hc b => exact absurd hl (not_or.2 hc)

theorem opening? (h : Follows l r r') (hl : ∃ c ∈ l.text.getLast?, isLineEnd c = true) :
    r' = [] ∨ LineEnding.opening? r' = LineEnding.opening? r := by
  cases h with
  | cut => exact .inl rfl
  | more h b => exact .inr (LineEnding.opening?_append h b)
  | quote h b => rcases h with rfl | rfl <;> exact .inr rfl
  | line hlast _ b =>
    refine .inr (LineEnding.opening?_append_lf ?_ ?_ b)
    · rintro rfl
      obtain ⟨c, hc, he⟩ := hl
      rw [List.append_nil] at hlast
      simp [hlast c hc] at he
    · rintro rfl
      exact absurd (hlast '\r' (by simp)) (by decide)

end Follows

/-- A scanner of the lexemes that start with `opener`, given what stands behind it, scans a lexeme
before any rest that may follow it as before its own. -/
def Settles (opener : Text) (scanner : Text → Lexeme × Text) : Prop :=
  ∀ ⦃t l r r'⦄, scanner t = (l, r) → Follows l r r' →
    ∃ u, l.text = opener ++ u ∧ scanner (u ++ r') = (l, r')

/-- A scanner does as another one that settles where a condition on what stands ahead does not
hold, and no rest that may follow makes it hold. -/
theorem Settles.unless {opener : Text} {f g : Text → Lexeme × Text} {q : Text → Bool}
    (hg : Settles opener g) (hs : ∀ t, Splits (g t) (opener ++ t))
    (hfg : ∀ t, q t = false → f t = g t)
    (hq : ∀ r r', Ahead r r' → q r = false → q r' = false) {t r r' : Text} {l : Lexeme}
    (ht : q t = false) (h : f t = (l, r)) (hf : Follows l r r') :
    ∃ u, l.text = opener ++ u ∧ f (u ++ r') = (l, r') := by
  rw [hfg t ht] at h
  obtain ⟨u, hu, he⟩ := hg h hf
  have hst := hs t
  rw [h] at hst
  have hut : u ++ r = t := hst.tail hu
  refine ⟨u, hu, ?_⟩
  rw [hfg _ (hq _ _ (hf.ahead.append u) (by rwa [hut])), he]

/-! ## One kind after another -/

theorem single_settles (tag : Tag) (c : Char) : Settles [c] (single tag c) := by
  intro t l r r' h hf
  simp only [single, Prod.mk.injEq] at h
  obtain ⟨rfl, rfl⟩ := h
  exact ⟨[], rfl, rfl⟩

theorem run_settles (tag : Tag) {p : Char → Bool} (hp : p '\n' = false) (c : Char) :
    Settles [c] (run tag p c) := by
  intro t l r r' h hf
  simp only [run, Prod.mk.injEq] at h
  obtain ⟨rfl, rfl⟩ := h
  refine ⟨t.takeWhile p, rfl, ?_⟩
  rw [run, takeWhile_replace hp hf.ahead, dropWhile_replace hp hf.ahead]

theorem restOfLine_replace {t r' : Text} (h : Ahead (afterLine t) r') :
    restOfLine (restOfLine t ++ r') = restOfLine t ∧ afterLine (restOfLine t ++ r') = r' :=
  ⟨takeWhile_replace (by decide) h, dropWhile_replace (by decide) h⟩

theorem enclosed_settles (closed : Tag) {unclosed : Tag} (opener : Text) {closer : Text}
    (hn : closer ≠ [])
    (ht : unclosed = .unterminatedBlockComment ∨ unclosed = .unterminatedTripleQuote) :
    Settles opener (enclosed closed unclosed opener closer) := by
  intro t l r r' h hf
  rw [enclosed] at h
  cases hs : Text.splitAfter? closer t with
  | some x =>
    obtain ⟨body, rest⟩ := x
    simp only [hs, Prod.mk.injEq] at h
    obtain ⟨rfl, rfl⟩ := h
    exact ⟨body, rfl, by rw [enclosed, Text.splitAfter?_replace hn hs r']⟩
  | none =>
    simp only [hs, Prod.mk.injEq] at h
    obtain ⟨rfl, rfl⟩ := h
    obtain rfl := hf.eq_nil ht
    exact ⟨t, rfl, by rw [List.append_nil, enclosed, hs]⟩

theorem quotedForm_settles (closed unclosed : Tag) (opener : Text) {quote : Char}
    (hq : isLineEnd quote = false) :
    Settles opener (quotedForm closed unclosed opener quote) := by
  intro t l r r' h hf
  simp only [quotedForm, QuotedBody.scan_eq_read, Prod.mk.injEq] at h
  obtain ⟨rfl, rfl⟩ := h
  have hr : (QuotedBody.read quote t).closed = true ∨ r' = [] ∨ opensWith isLineEnd r' = true := by
    cases hc : (QuotedBody.read quote t).closed with
    | true => exact .inl rfl
    | false => exact .inr (hf.stop (QuotedBody.rest_of_not_closed hc))
  refine ⟨(QuotedBody.read quote t).text, rfl, ?_⟩
  simp only [quotedForm, QuotedBody.scan_eq_read, QuotedBody.read_replace hq hr]

theorem newline_settles {ending : LineEnding} {t : Text} {l : Lexeme} {r r' : Text}
    (h : newline ending t = (l, r)) (hl : l.text ≠ []) (hf : Follows l r r') :
    newline ending (l.text ++ r') = (l, r') := by
  rcases hrun : ending.run t with ⟨taken, rest⟩
  simp only [newline, hrun, Prod.mk.injEq] at h
  obtain ⟨rfl, rfl⟩ := h
  have hlast : ∃ c ∈ taken.getLast?, isLineEnd c = true := by
    have hmem := List.getLast_mem hl
    refine ⟨taken.getLast hl, List.getLast?_eq_some_getLast hl, ?_⟩
    exact @LineEnding.isLineEnd_of_mem_run ending t _ (by rwa [hrun])
  rw [newline, LineEnding.run_replace hrun (hf.opening? hlast)]

/-- An operator extends over an identifier if it is a `\\`, and over operator characters if not. -/
theorem operator_eq (c : Char) (t : Text) :
    operator c t = if c = '\\' && startsIdent t then run .operator isIdentContinue c t
      else (⟨.operator, c :: (operatorTail t).1⟩, (operatorTail t).2) := by
  by_cases hi : startsIdent t = true
  · have ho : operatorTail t = ([], t) := by
      rw [operatorTail_eq_spanBy]
      refine Text.spanBy_stop ?_
      cases t with
      | nil => simp [startsIdent, opensWith] at hi
      | cons d t =>
        have hd : isOperatorChar d = false := by
          rw [Bool.eq_false_iff]
          intro hd
          have := (excludes_of_isOperatorChar hd).2.2.1
          simp [startsIdent, opensWith, this] at hi
        simp [opensOperatorTail, opensWith, hd]
    simp [operator, ho, hi]
  · rcases ht : operatorTail t with ⟨taken, rest⟩
    have hs := operatorTail_append t
    rw [ht] at hs
    cases taken with
    | nil =>
      obtain rfl : rest = t := hs
      simp [operator, ht, hi]
    | cons d taken => simp [operator, ht, hi]

theorem tag_operator (c : Char) (t : Text) : (operator c t).1.tag = .operator := by
  rw [operator_eq]
  split <;> rfl

theorem operator_settles (c : Char) : Settles [c] (operator c) := by
  intro t l r r' h hf
  rw [operator_eq] at h
  by_cases hi : (decide (c = '\\') && startsIdent t) = true
  · rw [if_pos hi] at h
    obtain ⟨u, hu, hrun⟩ := run_settles .operator (by decide) c h hf
    refine ⟨u, hu, ?_⟩
    rw [operator_eq, if_pos, hrun]
    -- The identifier is still there.
    simp only [Bool.and_eq_true] at hi ⊢
    refine ⟨hi.1, ?_⟩
    obtain rfl : u = t.takeWhile isIdentContinue := by
      simp only [run, Prod.mk.injEq] at h
      rw [← h.1] at hu
      simpa using hu.symm
    cases t with
    | nil => exact absurd hi.2 (by decide)
    | cons d t =>
      have hd : isIdentContinue d = true := isIdentContinue_of_isIdentStart hi.2
      rw [List.takeWhile_cons_of_pos hd]
      exact hi.2
  · rw [if_neg hi] at h
    rcases ht : operatorTail t with ⟨taken, rest⟩
    simp only [ht, Prod.mk.injEq] at h
    obtain ⟨rfl, rfl⟩ := h
    have hs : taken ++ rest = t := by simpa [ht] using operatorTail_append t
    refine ⟨taken, rfl, ?_⟩
    rw [operator_eq, if_neg, operatorTail_replace ht hf.ahead hf.eq_nil_or_prefix]
    rw [Bool.not_eq_true, Bool.and_eq_false_iff] at hi ⊢
    refine hi.imp_right fun hi => (hf.ahead.append taken).opensWith_eq_false (by decide) ?_
    rw [hs]
    exact hi

theorem number_replace {t r r' : Text} {l : Lexeme} (h : number t = (l, r)) (hf : Follows l r r') :
    number (l.text ++ r') = (l, r') := by
  rcases hs : Segments.scan t with ⟨n, rest⟩
  simp only [number, hs, Prod.mk.injEq] at h
  obtain ⟨rfl, rfl⟩ := h
  rw [number, Segments.scan_replace hs hf.ahead]

theorem minus_of_not {before : Option Char} {t : Text}
    (h : (opensNumber t && isOperandPosition before) = false) :
    minus before t = operator '-' t :=
  if_neg (Bool.eq_false_iff.1 h)

theorem scan_of_opensNumber {before : Option Char} {c : Char} {t : Text}
    (h : opensNumber (c :: t) = true) : scan before c t =
      (⟨.number, (Segments.scan (c :: t)).1.text⟩, (Segments.scan (c :: t)).2) :=
  Scanned.eq (.number h rfl)

/-- Where an operand may stand, a `-` before a number is its sign, unless the number is unsigned. -/
theorem minus_of_opensNumber {before : Option Char} {t : Text} (h : opensNumber t = true)
    (hb : isOperandPosition before = true) : minus before t =
      if (Segments.scan t).1.isUnsigned then (⟨.operator, ['-']⟩, t)
      else (⟨.number, '-' :: (Segments.scan t).1.text⟩, (Segments.scan t).2) := by
  rw [← Segments.hasUnsignedSuffix_scan]
  exact if_pos (Bool.and_eq_true_iff.2 ⟨h, hb⟩)

theorem minus_settles (before : Option Char) : Settles ['-'] (minus before) := by
  intro t l r r' h hf
  cases hn : opensNumber t && isOperandPosition before with
  | false =>
    refine (operator_settles '-').unless (operator_splits '-') (fun _ => minus_of_not)
      (fun r r' ha hr => ?_) hn h hf
    rw [Bool.and_eq_false_iff] at hr ⊢
    exact hr.imp_left ha.opensNumber_eq_false
  | true =>
    obtain ⟨hopens, hb⟩ := Bool.and_eq_true_iff.1 hn
    rcases hs : Segments.scan t with ⟨n, rest⟩
    rw [minus_of_opensNumber hopens hb, hs] at h
    by_cases hu : n.isUnsigned = true
    · -- An unsigned number behind the `-` is no part of the lexeme, but is there to be looked at.
      rw [if_pos hu, Prod.mk.injEq] at h
      obtain ⟨rfl, rfl⟩ := h
      refine ⟨[], rfl, ?_⟩
      rw [List.nil_append]
      rcases hf.eq_nil_or_prefix with rfl | ⟨b, rfl⟩
      · rfl
      · have hu' := Segments.isUnsigned_append (by rwa [hs]) b
        rw [minus_of_opensNumber (opensNumber_append hopens b) hb, if_pos hu']
    · rw [if_neg hu, Prod.mk.injEq] at h
      obtain ⟨rfl, rfl⟩ := h
      have hn' := Segments.opensNumber_text hopens r'
      rw [hs] at hn'
      refine ⟨n.text, rfl, ?_⟩
      rw [minus_of_opensNumber hn' hb, Segments.scan_replace hs hf.ahead, if_neg hu]

theorem slash_eq {t : Text} (h : opensWith (fun c => c = '/' || c = '*') t = false) :
    slash t = operator '/' t := by
  cases t with
  | nil => rfl
  | cons c t =>
    have hc : c ≠ '/' ∧ c ≠ '*' := by simpa [opensWith] using h
    simp [slash, hc]

theorem slash_settles : Settles ['/'] slash := by
  intro t l r r' h hf
  by_cases hc : opensWith (fun c => c = '/' || c = '*') t = true
  · cases t with
    | nil => exact absurd hc (by decide)
    | cons c t =>
      have hc : c = '/' ∨ c = '*' := by simpa [opensWith] using hc
      rcases hc with rfl | rfl
      · simp only [slash, Prod.mk.injEq] at h
        obtain ⟨rfl, rfl⟩ := h
        obtain ⟨hline, hafter⟩ := restOfLine_replace hf.ahead
        refine ⟨'/' :: restOfLine t, rfl, ?_⟩
        rw [List.cons_append, slash, hline, hafter]
      · obtain ⟨u, hu, he⟩ := enclosed_settles .blockComment ['/', '*'] (by simp) (.inl rfl) h hf
        exact ⟨'*' :: u, hu, he⟩
  · exact (operator_settles '/').unless (operator_splits '/') (fun _ => slash_eq)
      (fun r r' ha => ha.opensWith_eq_false (by decide)) (Bool.eq_false_iff.2 hc) h hf

theorem doubleQuote_eq {t : Text} (h : opensPair (· = '\x22') (· = '\x22') t = false) :
    doubleQuote t = quotedForm .string .unterminatedString ['\x22'] '\x22' t := by
  unfold doubleQuote
  split
  · simp [opensPair, opensWith] at h
  · rfl

theorem doubleQuote_settles : Settles ['\x22'] doubleQuote := by
  intro t l r r' h hf
  by_cases hc : opensPair (· = '\x22') (· = '\x22') t = true
  · obtain ⟨c, d, t, rfl, hc, hd⟩ := exists_of_opensPair hc
    obtain rfl : c = '\x22' := by simpa using hc
    obtain rfl : d = '\x22' := by simpa using hd
    obtain ⟨u, hu, he⟩ :=
      enclosed_settles .tripleQuote ['\x22', '\x22', '\x22'] (by simp) (.inr rfl) h hf
    exact ⟨'\x22' :: '\x22' :: u, hu, he⟩
  · rw [Bool.not_eq_true] at hc
    rw [doubleQuote_eq hc] at h
    obtain ⟨u, hu, he⟩ := quotedForm_settles _ _ ['\x22'] (by decide) h hf
    have hs : Splits (l, r) (['\x22'] ++ t) := by
      rw [← h]
      exact quotedForm_splits _ _ _ _ (by simp)
    have ht : u ++ r = t := hs.tail hu
    refine ⟨u, hu, ?_⟩
    rw [doubleQuote_eq, he]
    rw [Bool.eq_false_iff]
    intro hpair
    cases u with
    | nil =>
      -- A string of one quote is not closed, so no quote stands behind it.
      obtain ⟨c, d, w, rfl, hc, -⟩ := exists_of_opensPair hpair
      obtain rfl : c = '\x22' := by simpa using hc
      rw [List.nil_append, quotedForm, QuotedBody.scan_eq_read, QuotedBody.read_closing,
        Prod.mk.injEq] at he
      rw [← he.1] at hu
      simp at hu
    | cons c u =>
      rw [← ht, List.cons_append, opensPair, Bool.and_eq_false_iff] at hc
      rw [List.cons_append, opensPair, Bool.and_eq_true] at hpair
      have hstop := (hf.ahead.append u).opensWith_eq_false (by decide)
        (hc.resolve_left (by rw [hpair.1]; exact Bool.noConfusion))
      rw [hpair.2] at hstop
      cases hstop

theorem singleQuote_eq {t : Text} (h : opensWith (· = '\x27') t = false) :
    singleQuote t = quotedForm .char .unterminatedChar ['\x27'] '\x27' t := by
  cases t with
  | nil => rfl
  | cons c t =>
    have hc : c ≠ '\x27' := by simpa [opensWith] using h
    simp [singleQuote, hc]

theorem singleQuote_empty {t : Text} (h : opensWith (· = '\x27') t = false) :
    singleQuote ('\x27' :: t) = (⟨.char, '\x27' :: '\x27' :: restOfLine t⟩, afterLine t) := by
  cases t with
  | nil => rfl
  | cons c t =>
    have hc : c ≠ '\x27' := by simpa [opensWith] using h
    simp [singleQuote, hc]

theorem singleQuote_settles : Settles ['\x27'] singleQuote := by
  intro t l r r' h hf
  by_cases hc : opensWith (· = '\x27') t = true
  · cases t with
    | nil => exact absurd hc (by decide)
    | cons c t =>
      obtain rfl : c = '\x27' := by simpa [opensWith] using hc
      by_cases hd : opensWith (· = '\x27') t = true
      · cases t with
        | nil => exact absurd hd (by decide)
        | cons d t =>
          obtain rfl : d = '\x27' := by simpa [opensWith] using hd
          obtain ⟨u, hu, he⟩ :=
            enclosed_settles .tripleQuote ['\x27', '\x27', '\x27'] (by simp) (.inr rfl) h hf
          exact ⟨'\x27' :: '\x27' :: u, hu, he⟩
      · rw [Bool.not_eq_true] at hd
        rw [singleQuote_empty hd, Prod.mk.injEq] at h
        obtain ⟨rfl, rfl⟩ := h
        obtain ⟨hline, hafter⟩ := restOfLine_replace hf.ahead
        refine ⟨'\x27' :: restOfLine t, rfl, ?_⟩
        rw [List.cons_append, singleQuote_empty, hline, hafter]
        refine (hf.ahead.append (restOfLine t)).opensWith_eq_false (by decide) ?_
        rw [restOfLine_append]
        exact hd
  · exact (quotedForm_settles _ _ ['\x27'] (by decide)).unless
      (fun t => quotedForm_splits _ _ _ t (by simp)) (fun _ => singleQuote_eq)
      (fun r r' ha => ha.opensWith_eq_false (by decide)) (Bool.eq_false_iff.2 hc) h hf

/-- Whether a text, behind `@@`, opens with the quote of a quoted symbol. -/
def opensQuotedSymbol (t : Text) : Bool := opensWith (fun c => c = '\x60' || c = '\x22') t

theorem doubleAt_eq {t : Text} (h : opensQuotedSymbol t = false) :
    doubleAt t = if (escapeRun t).1.isEmpty then single .atSign '@' ('@' :: t)
      else (⟨.symbol, '@' :: '@' :: (escapeRun t).1⟩, (escapeRun t).2) := by
  cases t with
  | nil => rfl
  | cons c t => rw [doubleAt, if_neg (by simpa [opensQuotedSymbol, opensWith] using h)]

theorem doubleAt_append {t : Text} (ht : t ≠ []) (hq : opensQuotedSymbol t = false)
    (h : escapeRun t = ([], t)) (b : Text) :
    doubleAt (t ++ b) = single .atSign '@' ('@' :: (t ++ b)) := by
  match t, ht with
  | c :: t, _ =>
    have hrun : escapeRun (c :: t ++ b) = ([], c :: t ++ b) := by
      unfold escapeRun at h ⊢
      rw [List.cons_append, opensWith_cons]
      rw [opensWith_cons] at h
      split
      · rfl
      · rename_i hc
        rw [if_neg hc, escapeRunTail_eq_spanBy] at h
        rw [escapeRunTail_eq_spanBy]
        have hstop := (Text.spanBy_eq_nil_iff rfl).1 h
        refine Text.spanBy_stop ?_
        rw [opensEscapeRun, opensComment_eq, Bool.and_eq_false_iff, Bool.not_eq_false'] at hstop ⊢
        exact hstop.imp_right fun hc => opensPair_append hc b
    have hq' : opensQuotedSymbol (c :: t ++ b) = false := hq
    rw [doubleAt_eq hq', hrun]
    rfl

theorem atSign_eq {t : Text} (h : opensWith (fun c => c = '@' || c = '\x60') t = false) :
    atSign t = if (escapeRun t).1.isEmpty then single .atSign '@' t
      else (⟨.escapedIdent, '@' :: (escapeRun t).1⟩, (escapeRun t).2) := by
  cases t with
  | nil => rfl
  | cons c t =>
    have hc : c ≠ '@' ∧ c ≠ '\x60' := by simpa [opensWith] using h
    simp [atSign, hc]

theorem doubleAt_settles {t : Text} {l : Lexeme} {r r' : Text} (h : doubleAt t = (l, r))
    (hf : Follows l r r') : ∃ u, l.text = '@' :: u ∧ atSign (u ++ r') = (l, r') := by
  by_cases hq : opensQuotedSymbol t = true
  · cases t with
    | nil => exact absurd hq (by decide)
    | cons c t =>
      have hq : (decide (c = '\x60') || decide (c = '\x22')) = true := hq
      have hline : isLineEnd c = false := by
        simp only [Bool.or_eq_true, decide_eq_true_eq] at hq
        rcases hq with rfl | rfl <;> decide
      rw [doubleAt, if_pos hq] at h
      obtain ⟨u, hu, hform⟩ := quotedForm_settles _ _ _ hline h hf
      refine ⟨'@' :: c :: u, hu, ?_⟩
      rw [List.cons_append, List.cons_append, atSign, doubleAt, if_pos hq, hform]
  · rw [Bool.not_eq_true] at hq
    rw [doubleAt_eq hq] at h
    rcases hrun : escapeRun t with ⟨taken, rest⟩
    have ht : taken ++ rest = t := by simpa [hrun] using escapeRun_append t
    rw [hrun] at h
    cases taken with
    | nil =>
      obtain rfl : rest = t := ht
      simp only [List.isEmpty_nil, if_true, single, Prod.mk.injEq] at h
      obtain ⟨rfl, rfl⟩ := h
      refine ⟨[], rfl, ?_⟩
      -- One character behind the first `@` is not enough to see that there is no symbol.
      have hmore (b : Text) (hn : rest ≠ []) :
          atSign ('@' :: (rest ++ b)) = single .atSign '@' ('@' :: (rest ++ b)) :=
        doubleAt_append hn hq hrun b
      cases hf with
      | cut => rfl
      | more h b =>
        refine hmore b ?_
        rintro rfl
        simp at h
      | quote h b => simp at h
      | line _ _ b =>
        by_cases hn : rest = []
        · subst hn
          rfl
        · exact hmore _ hn
    | cons d taken =>
      simp only [List.isEmpty_cons, Bool.false_eq_true, if_false, Prod.mk.injEq] at h
      obtain ⟨rfl, rfl⟩ := h
      refine ⟨'@' :: d :: taken, rfl, ?_⟩
      have hq' : opensQuotedSymbol (d :: taken ++ r') = false := by
        rw [← ht] at hq
        exact hq
      rw [List.cons_append, atSign, doubleAt_eq hq',
        escapeRun_replace hrun hf.ahead hf.eq_nil_or_prefix]
      rfl

theorem atSign_settles : Settles ['@'] atSign := by
  intro t l r r' h hf
  by_cases hc : opensWith (fun c => c = '@' || c = '\x60') t = true
  · cases t with
    | nil => exact absurd hc (by decide)
    | cons c t =>
      have hc : c = '@' ∨ c = '\x60' := by simpa [opensWith] using hc
      rcases hc with rfl | rfl
      · exact doubleAt_settles h hf
      · obtain ⟨u, hu, hq⟩ := quotedForm_settles _ _ ['@', '\x60'] (by decide) h hf
        exact ⟨'\x60' :: u, hu, hq⟩
  · rw [Bool.not_eq_true] at hc
    rw [atSign_eq hc] at h
    rcases hrun : escapeRun t with ⟨taken, rest⟩
    have ht : taken ++ rest = t := by simpa [hrun] using escapeRun_append t
    have stop : Ahead rest r' →
        opensWith (fun c => c = '@' || c = '\x60') (taken ++ r') = false := by
      intro ha
      refine (ha.append taken).opensWith_eq_false (by decide) ?_
      rw [ht]
      exact hc
    rw [hrun] at h
    cases taken with
    | nil =>
      obtain rfl : rest = t := ht
      simp only [List.isEmpty_nil, if_true, single, Prod.mk.injEq] at h
      obtain ⟨rfl, rfl⟩ := h
      refine ⟨[], rfl, ?_⟩
      rw [atSign_eq (stop hf.ahead), escapeRun_replace hrun hf.ahead hf.eq_nil_or_prefix]
      rfl
    | cons d taken =>
      simp only [List.isEmpty_cons, Bool.false_eq_true, if_false, Prod.mk.injEq] at h
      obtain ⟨rfl, rfl⟩ := h
      refine ⟨d :: taken, rfl, ?_⟩
      rw [atSign_eq (stop hf.ahead), escapeRun_replace hrun hf.ahead hf.eq_nil_or_prefix]
      rfl

/-! ## All kinds -/

/-- **A lexeme is scanned before any rest that may follow it as before its own.** -/
theorem scan_replace {before : Option Char} {c : Char} {t r r' : Text} {l : Lexeme}
    (h : scan before c t = (l, r)) (hf : Follows l r r') :
    ∃ u, l.text = c :: u ∧ scan before c (u ++ r') = (l, r') := by
  have hsplit : Splits (l, r) ([c] ++ t) := .of_scan h
  cases scan_eq_iff.1 h with
  | newline hn hx =>
    obtain ⟨u, hu⟩ := Splits.exists_tail hsplit
    have hrun := newline_settles hx hsplit.1 hf
    rw [hu, List.cons_append] at hrun
    refine ⟨u, hu, scan_eq_iff.2 (.newline (LineEnding.opening?_of_run ?_) hrun)⟩
    rw [newline, Prod.mk.injEq] at hrun
    intro hnil
    refine hsplit.1 ?_
    rw [← hrun.1]
    exact hnil
  | spaces hc hx =>
    obtain ⟨u, hu, hs⟩ := run_settles .spaces (by decide) c hx hf
    exact ⟨u, hu, scan_eq_iff.2 (.spaces hc hs)⟩
  | shebang hc hb ht hx =>
    simp only [Prod.mk.injEq] at hx
    obtain ⟨rfl, rfl⟩ := hx
    obtain ⟨hline, hafter⟩ := restOfLine_replace hf.ahead
    refine ⟨restOfLine t, rfl, scan_eq_iff.2 (.shebang hc hb ?_ ?_)⟩
    · cases t with
      | nil => simp [opensWith] at ht
      | cons d t =>
        obtain rfl : d = '!' := by simpa [opensWith] using ht
        rfl
    · rw [hline, hafter]
  | ident hc hs hx =>
    obtain ⟨u, hu, he⟩ := run_settles .ident (by decide) c hx hf
    refine ⟨u, hu, scan_eq_iff.2 (.ident hc (fun h1 h2 => ?_) he)⟩
    refine (hf.ahead.append u).opensWith_eq_false (by decide) ?_
    rw [hsplit.tail hu]
    exact hs h1 h2
  | number hc hx =>
    obtain ⟨u, hu⟩ := Splits.exists_tail hsplit
    have hn := number_replace hx hf
    have hc' : opensNumber (l.text ++ r') = true := by
      rw [number, Prod.mk.injEq] at hx
      rw [← hx.1]
      exact Segments.opensNumber_text (t := c :: t) hc r'
    rw [hu, List.cons_append] at hn hc'
    exact ⟨u, hu, scan_eq_iff.2 (.number hc' hn)⟩
  | minus hc hx =>
    subst hc
    obtain ⟨u, hu, he⟩ := minus_settles before hx hf
    exact ⟨u, hu, scan_eq_iff.2 (.minus rfl he)⟩
  | slash hc hx =>
    subst hc
    obtain ⟨u, hu, he⟩ := slash_settles hx hf
    exact ⟨u, hu, scan_eq_iff.2 (.slash rfl he)⟩
  | doubleQuote hc hx =>
    subst hc
    obtain ⟨u, hu, he⟩ := doubleQuote_settles hx hf
    exact ⟨u, hu, scan_eq_iff.2 (.doubleQuote rfl he)⟩
  | singleQuote hc hx =>
    subst hc
    obtain ⟨u, hu, he⟩ := singleQuote_settles hx hf
    exact ⟨u, hu, scan_eq_iff.2 (.singleQuote rfl he)⟩
  | backQuote hc hx =>
    subst hc
    obtain ⟨u, hu, he⟩ := quotedForm_settles _ _ ['\x60'] (by decide) hx hf
    exact ⟨u, hu, scan_eq_iff.2 (.backQuote rfl he)⟩
  | atSign hc hx =>
    subst hc
    obtain ⟨u, hu, he⟩ := atSign_settles hx hf
    exact ⟨u, hu, scan_eq_iff.2 (.atSign rfl he)⟩
  | punctuation hp hx =>
    obtain ⟨u, hu, he⟩ := single_settles _ c hx hf
    exact ⟨u, hu, scan_eq_iff.2 (.punctuation hp he)⟩
  | operator hc hm hs hn hx =>
    obtain ⟨u, hu, he⟩ := operator_settles c hx hf
    refine ⟨u, hu, scan_eq_iff.2 (.operator hc hm hs ?_ he)⟩
    refine (hf.ahead.append (c :: u)).opensFraction_eq_false ?_
    rw [List.cons_append, hsplit.tail hu]
    exact hn
  | unknown hc hx =>
    obtain ⟨u, hu, he⟩ := single_settles .unknown c hx hf
    exact ⟨u, hu, scan_eq_iff.2 (.unknown hc he)⟩

theorem scan_append {before : Option Char} {c : Char} {t r b : Text} {l : Lexeme}
    (h : scan before c t = (l, r)) (hf : Follows l r (r ++ b)) :
    scan before c (t ++ b) = (l, r ++ b) := by
  obtain ⟨u, hu, hscan⟩ := scan_replace h hf
  have hs : Splits (l, r) ([c] ++ t) := .of_scan h
  have ht : u ++ r = t := hs.tail hu
  rwa [← List.append_assoc, ht] at hscan

/-! ## What stands before -/

/-- **What stands before a lexeme matters to a `#!` and to a `-` alone.** -/
theorem scan_before {before : Option Char} {c : Char} {t : Text}
    (hs : c = '#' → opensWith (· = '!') t = false)
    (hm : c = '-' → isOperandPosition before = true) : scan before c t = scan none c t := by
  by_cases hc : c = '#'
  · have hd : c ≠ '-' := by
      rw [hc]
      decide
    simp [scan, hs hc, hd]
  by_cases hd : c = '-'
  · subst hd
    show minus before t = minus none t
    rw [minus, minus, hm rfl]
    rfl
  · simp [scan, hc, hd]

theorem operator_rest_ne_nil {c : Char} {t : Text} (hc : c ≠ '\\') (h : opensNumber t = true) :
    (operator c t).2 ≠ [] := by
  have ho : opensOperatorTail t = false := by
    rw [opensNumber, Bool.or_eq_true] at h
    rw [opensOperatorTail, Bool.and_eq_false_iff, Bool.and_eq_false_iff]
    rcases h with h | h
    · refine .inl (.inl ?_)
      cases t with
      | nil => rfl
      | cons d t =>
        rw [opensWith_cons, Bool.eq_false_iff]
        intro hd
        rw [opensWith_cons, (excludes_of_isOperatorChar hd).2.2.2.1] at h
        exact absurd h (by decide)
    · exact .inr (by rw [h]; rfl)
  rw [operator_eq, if_neg (by simp [hc]), operatorTail_eq_spanBy, Text.spanBy_stop ho]
  rintro rfl
  exact absurd h (by decide)

/-- **A lexeme with nothing behind it is the same with nothing before it.** -/
theorem scan_alone {before : Option Char} {c : Char} {u : Text} {l : Lexeme}
    (h : scan before c u = (l, [])) : scan none c u = (l, []) := by
  by_cases hc : c = '#' ∧ opensWith (· = '!') u = true
  · obtain ⟨rfl, hu⟩ := hc
    cases before with
    | none => exact h
    | some c =>
      -- An identifier `#` would have left the `!` behind.
      cases u with
      | nil => exact absurd hu (by decide)
      | cons d u =>
        obtain rfl : d = '!' := by simpa [opensWith] using hu
        have hid : scan (some c) '#' ('!' :: u) = run .ident isIdentContinue '#' ('!' :: u) :=
          Scanned.eq (.ident (by decide) (fun _ hb => by simp at hb) rfl)
        rw [hid] at h
        have hstop : isIdentContinue '!' = false := by decide
        exact absurd (congrArg Prod.snd h) (by simp [run, hstop])
  have hs : c = '#' → opensWith (· = '!') u = false := fun e => by simpa [e] using hc
  by_cases hm : c = '-' ∧ isOperandPosition before = false
  · obtain ⟨rfl, hb⟩ := hm
    have ho : minus before u = (l, []) := h
    rw [minus_of_not (by rw [hb, Bool.and_false])] at ho
    show minus none u = (l, [])
    cases hn : opensNumber u with
    | true => exact absurd (congrArg Prod.snd ho) (operator_rest_ne_nil (by decide) hn)
    | false => rw [minus_of_not (by rw [hn, Bool.false_and]), ho]
  · rw [← h]
    exact (scan_before hs fun e => by simpa [e] using hm).symm

end LesTokens.Lexeme
