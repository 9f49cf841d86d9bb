/-
Runs go on as long as they can. What stands behind an identifier, a blank, an operator or a bare
name would not have continued it (`Lexeme.MaximalBefore`). Operators and names stop where a comment
starts, and so have none inside; an operator also stops before a fraction, once it has started.

**`Text.runs_maximal`**: so it is with every lexeme of a source.
-/
import LesTokens.Proofs.Calls

namespace LesTokens

/-! ## What runs are made of -/

/-- A text that has no comment opener in it. -/
structure Text.NoComment (t : Text) : Prop where
  line : ¬['/', '/'] <:+: t
  block : ¬['/', '*'] <:+: t

/-- An identifier before a rest that does not continue it. -/
structure IdentRun (name rest : Text) : Prop where
  starts : opensWith isIdentStart name = true
  continues : ∀ c ∈ name.tail, isIdentContinue c = true
  stops : opensWith isIdentContinue rest = false

/-- Blanks before a rest that does not continue them. -/
structure BlankRun (t rest : Text) : Prop where
  starts : t ≠ []
  blank : ∀ c ∈ t, isBlank c = true
  stops : opensWith isBlank rest = false

/-- Operator characters before a rest that does not continue them. A backslash on its own stands
before no identifier. -/
structure OperatorRun (t rest : Text) : Prop where
  starts : t ≠ []
  operator : ∀ c ∈ t, isOperatorChar c = true
  comment : t.NoComment
  stops : opensWith isOperatorChar rest = true →
    opensComment rest = true ∨ opensFraction rest = true
  lone : t = ['\\'] → opensWith isIdentStart rest = false

/-- A bare name before a rest that does not continue it. -/
structure NameRun (name rest : Text) : Prop where
  starts : name ≠ []
  quote : opensWith (· = '\x27') name = false
  escape : ∀ c ∈ name, isEscapeRunChar c = true
  comment : name.NoComment
  stops : opensWith isEscapeRunChar rest = true → opensComment rest = true

/-- Whether a lexeme that may be a run goes on as long as it can before a rest. -/
def Lexeme.MaximalBefore (l : Lexeme) (rest : Text) : Prop :=
  match l.tag with
  | .ident => IdentRun l.text rest
  | .spaces => BlankRun l.text rest
  | .operator => (∃ name, l.text = '\\' :: name ∧ IdentRun name rest) ∨ OperatorRun l.text rest
  | .escapedIdent => (∃ body, l.text = '@' :: '\x60' :: body) ∨
      ∃ name, l.text = '@' :: name ∧ NameRun name rest
  | .symbol => (∃ quote body, (quote = '\x60' ∨ quote = '\x22') ∧
        l.text = '@' :: '@' :: quote :: body) ∨
      ∃ name, l.text = '@' :: '@' :: name ∧ NameRun name rest
  | _ => True

/-! ## Runs that stop before comments -/

namespace Text

theorem not_prefix_of_opensComment {t r : Text} (h : opensComment (t ++ r) = false) {c : Char}
    (hc : c = '/' ∨ c = '*') : ¬['/', c] <+: t := by
  rintro ⟨u, rfl⟩
  rcases hc with rfl | rfl <;> cases h

theorem not_infix_of_spanBy {q : Text → Bool} (hq : ∀ w, q w = true → opensComment w = false)
    {u r : Text} (h : spanBy q (u ++ r) = (u, r)) {c : Char} (hc : c = '/' ∨ c = '*') :
    ¬['/', c] <:+: u := by
  induction u with
  | nil => simp
  | cons d u ih =>
    obtain ⟨hd, hu⟩ := spanBy_cons_append.1 h
    rw [List.infix_cons_iff, not_or]
    exact ⟨not_prefix_of_opensComment (hq _ hd) hc, ih hu⟩

theorem spanBy_stops {q : Text → Bool} {p : Char → Bool}
    (hq : ∀ w, q w = true → opensWith p w = true ∧ opensComment w = false) {u r : Text}
    (h : spanBy q (u ++ r) = (u, r)) : (∀ c ∈ u, p c = true) ∧ u.NoComment ∧ q r = false := by
  have hcomment (w : Text) (hw : q w = true) := (hq w hw).2
  have hchars := forall_mem_spanBy (fun c w h => (hq (c :: w) h).1) (u ++ r)
  rw [h] at hchars
  have hnil : q [] = false := Bool.eq_false_iff.2 fun hw => absurd (hq [] hw).1 Bool.false_ne_true
  have hnone : u.NoComment :=
    ⟨not_infix_of_spanBy hcomment h (.inl rfl), not_infix_of_spanBy hcomment h (.inr rfl)⟩
  exact ⟨hchars, hnone, (spanBy_eq_nil_iff hnil).1 (spanBy_rest h)⟩

theorem NoComment.cons {c : Char} {u r : Text} (hc : opensComment (c :: (u ++ r)) = false)
    (h : u.NoComment) : NoComment (c :: u) := by
  constructor
  · rw [List.infix_cons_iff, not_or]
    exact ⟨not_prefix_of_opensComment hc (.inl rfl), h.line⟩
  · rw [List.infix_cons_iff, not_or]
    exact ⟨not_prefix_of_opensComment hc (.inr rfl), h.block⟩

end Text

/-! ## One kind after another -/

theorem IdentRun.of_opensWith {t : Text} (h : opensWith isIdentStart t = true) :
    IdentRun (t.takeWhile isIdentContinue) (t.dropWhile isIdentContinue) where
  starts := by
    cases t with
    | nil => cases h
    | cons c t =>
      rw [List.takeWhile_cons_of_pos (isIdentContinue_of_isIdentStart h)]
      exact h
  continues c hc := List.all_eq_true.1 List.all_takeWhile c (List.mem_of_mem_tail hc)
  stops := opensWith_dropWhile _ t

namespace Lexeme

theorem ident_maximal {c : Char} (hc : isIdentStart c = true) (t : Text) :
    (run .ident isIdentContinue c t).1.MaximalBefore (run .ident isIdentContinue c t).2 := by
  have hrun := IdentRun.of_opensWith (t := c :: t) hc
  have hcontinue := isIdentContinue_of_isIdentStart hc
  rw [List.takeWhile_cons_of_pos hcontinue, List.dropWhile_cons_of_pos hcontinue] at hrun
  exact hrun

theorem spaces_maximal {c : Char} (hc : isBlank c = true) (t : Text) :
    (run .spaces isBlank c t).1.MaximalBefore (run .spaces isBlank c t).2 := by
  have hblank : ∀ d ∈ c :: t.takeWhile isBlank, isBlank d = true :=
    List.forall_mem_cons.2 ⟨hc, List.all_eq_true.1 List.all_takeWhile⟩
  exact BlankRun.mk (List.cons_ne_nil _ _) hblank (opensWith_dropWhile _ t)

theorem operatorRun {c : Char} {t : Text} (hc : isOperatorChar c = true)
    (hcomment : opensComment (c :: t) = false)
    (hlone : c = '\\' → opensWith isIdentStart t = false) :
    OperatorRun (c :: (operatorTail t).1) (operatorTail t).2 := by
  rcases htail : operatorTail t with ⟨u, r⟩
  obtain rfl : u ++ r = t := by simpa [htail] using operatorTail_append t
  rw [operatorTail_eq_spanBy] at htail
  have hgo (w : Text) (hw : opensOperatorTail w = true) :
      opensWith isOperatorChar w = true ∧ opensComment w = false := by
    simp only [opensOperatorTail, Bool.and_eq_true, Bool.not_eq_true'] at hw
    exact hw.1
  obtain ⟨hchars, hnone, hstop⟩ := Text.spanBy_stops hgo htail
  refine ⟨List.cons_ne_nil _ _, List.forall_mem_cons.2 ⟨hc, hchars⟩, hnone.cons hcomment,
    fun hr => ?_, fun h => ?_⟩
  · simpa only [opensOperatorTail, hr, Bool.true_and, Bool.and_eq_false_iff, Bool.not_eq_false']
      using hstop
  · obtain ⟨rfl, rfl⟩ := List.cons.inj h
    exact hlone rfl

theorem operator_maximal {c : Char} {t : Text} (hc : isOperatorChar c = true)
    (hcomment : opensComment (c :: t) = false) :
    (operator c t).1.MaximalBefore (operator c t).2 := by
  rw [operator_eq]
  split
  · rename_i h
    simp only [Bool.and_eq_true, decide_eq_true_eq] at h
    obtain ⟨rfl, hident⟩ := h
    exact .inl ⟨_, rfl, .of_opensWith hident⟩
  · rename_i h
    refine .inr (operatorRun hc hcomment fun hback => ?_)
    simpa [hback, startsIdent] using h

theorem quotedForm_maximal {closed unclosed : Tag} (opener : Text) (quote : Char) (t : Text)
    (h : ∀ text rest, (⟨closed, text⟩ : Lexeme).MaximalBefore rest)
    (h' : ∀ text rest, (⟨unclosed, text⟩ : Lexeme).MaximalBefore rest) :
    (quotedForm closed unclosed opener quote t).1.MaximalBefore
      (quotedForm closed unclosed opener quote t).2 := by
  rw [quotedForm]
  cases (QuotedBody.scan quote t).closed with
  | true => exact h _ _
  | false => exact h' _ _

theorem enclosed_maximal {closed unclosed : Tag} (opener closer t : Text)
    (h : ∀ text rest, (⟨closed, text⟩ : Lexeme).MaximalBefore rest)
    (h' : ∀ text rest, (⟨unclosed, text⟩ : Lexeme).MaximalBefore rest) :
    (enclosed closed unclosed opener closer t).1.MaximalBefore
      (enclosed closed unclosed opener closer t).2 := by
  unfold enclosed
  split
  · exact h _ _
  · exact h' _ _

theorem operatorRun_minus {t : Text} (h : opensNumber t = true) : OperatorRun ['-'] t where
  starts := List.cons_ne_nil _ _
  operator := by simp [isOperatorChar]
  comment := .cons (r := t) rfl ⟨by simp, by simp⟩
  stops ht := by
    rcases Bool.or_eq_true_iff.1 h with hdigit | hfraction
    · cases t with
      | nil => cases ht
      | cons d t =>
        -- No digit is an operator character.
        have hnot := (excludes_of_isOperatorChar ht).2.2.2.1
        rw [opensWith_cons, hnot] at hdigit
        cases hdigit
    · exact .inr hfraction
  lone := by simp

theorem minus_maximal (before : Option Char) (t : Text) :
    (minus before t).1.MaximalBefore (minus before t).2 := by
  cases htried : opensNumber t && isOperandPosition before with
  | false =>
    rw [minus_of_not htried]
    exact operator_maximal (by decide) rfl
  | true =>
    obtain ⟨hopens, hbefore⟩ := Bool.and_eq_true_iff.1 htried
    rw [minus_of_opensNumber hopens hbefore]
    split
    · exact .inr (operatorRun_minus hopens)
    · trivial

theorem slash_maximal (t : Text) : (slash t).1.MaximalBefore (slash t).2 := by
  cases hcomment : opensWith (fun c => c = '/' || c = '*') t with
  | false =>
    rw [slash_eq hcomment]
    refine operator_maximal (by decide) ?_
    rw [opensComment_eq]
    exact hcomment
  | true =>
    unfold slash
    split
    · trivial
    · exact enclosed_maximal _ _ _ (fun _ _ => trivial) fun _ _ => trivial
    · rename_i hline hblock
      cases t with
      | nil => cases hcomment
      | cons c t =>
        simp only [opensWith_cons, Bool.or_eq_true, decide_eq_true_eq] at hcomment
        rcases hcomment with rfl | rfl
        · exact absurd rfl (hline t)
        · exact absurd rfl (hblock t)

theorem nameRun {t : Text} (h : (escapeRun t).1 ≠ []) :
    NameRun (escapeRun t).1 (escapeRun t).2 := by
  rcases hrun : escapeRun t with ⟨u, r⟩
  rw [hrun] at h
  obtain rfl : u ++ r = t := by simpa [hrun] using escapeRun_append t
  unfold escapeRun at hrun
  split at hrun
  · exact absurd (congrArg Prod.fst hrun).symm h
  · rename_i hquote
    rw [escapeRunTail_eq_spanBy] at hrun
    have hgo (w : Text) (hw : opensEscapeRun w = true) :
        opensWith isEscapeRunChar w = true ∧ opensComment w = false := by
      simpa only [opensEscapeRun, Bool.and_eq_true, Bool.not_eq_true'] using hw
    obtain ⟨hchars, hnone, hstop⟩ := Text.spanBy_stops hgo hrun
    refine ⟨h, ?_, hchars, hnone, fun hr => ?_⟩
    · rw [Bool.eq_false_iff]
      exact fun hu => hquote (opensWith_append hu r)
    · simpa only [opensEscapeRun, hr, Bool.true_and, Bool.not_eq_false'] using hstop

theorem doubleAt_maximal (t : Text) : (doubleAt t).1.MaximalBefore (doubleAt t).2 := by
  cases hquoted : opensQuotedSymbol t with
  | false =>
    rw [doubleAt_eq hquoted]
    split
    · trivial
    · rename_i hne
      exact .inr ⟨_, rfl, nameRun fun h => hne (List.isEmpty_iff.2 h)⟩
  | true =>
    cases t with
    | nil => cases hquoted
    | cons c t =>
      have hc : (decide (c = '\x60') || decide (c = '\x22')) = true := hquoted
      rw [doubleAt, if_pos hc, quotedForm]
      simp only [Bool.or_eq_true, decide_eq_true_eq] at hc
      cases (QuotedBody.scan c t).closed with
      | true => exact .inl ⟨c, _, hc, rfl⟩
      | false => trivial

theorem atSign_maximal (t : Text) : (atSign t).1.MaximalBefore (atSign t).2 := by
  unfold atSign
  split
  · exact doubleAt_maximal _
  · rename_i t
    rw [quotedForm]
    cases (QuotedBody.scan '\x60' t).closed with
    | true => exact .inl ⟨_, rfl⟩
    | false => trivial
  · dsimp only
    split
    · trivial
    · rename_i hne
      exact .inr ⟨_, rfl, nameRun fun h => hne (List.isEmpty_iff.2 h)⟩

/-- **What is scanned goes on as long as it can.** -/
theorem scan_maximal (before : Option Char) (c : Char) (t : Text) :
    (scan before c t).1.MaximalBefore (scan before c t).2 := by
  cases scanned before c t with
  | newline h hx | shebang hc hb ht hx | unknown h hx =>
    rw [← hx]
    trivial
  | spaces h hx =>
    rw [← hx]
    exact spaces_maximal h t
  | ident h hs hx =>
    rw [← hx]
    exact ident_maximal h t
  | number h hx =>
    rw [← hx]
    trivial
  | minus hc hx =>
    rw [← hx]
    exact minus_maximal _ _
  | slash hc hx =>
    rw [← hx]
    exact slash_maximal _
  | doubleQuote hc hx =>
    rw [← hx, doubleQuote.eq_def]
    split
    · exact enclosed_maximal _ _ _ (fun _ _ => trivial) fun _ _ => trivial
    · exact quotedForm_maximal _ _ _ (fun _ _ => trivial) fun _ _ => trivial
  | singleQuote hc hx =>
    rw [← hx, singleQuote.eq_def]
    split
    · exact enclosed_maximal _ _ _ (fun _ _ => trivial) fun _ _ => trivial
    · trivial
    · exact quotedForm_maximal _ _ _ (fun _ _ => trivial) fun _ _ => trivial
  | backQuote hc hx =>
    rw [← hx]
    exact quotedForm_maximal _ _ _ (fun _ _ => trivial) fun _ _ => trivial
  | atSign hc hx =>
    rw [← hx]
    exact atSign_maximal _
  | punctuation h hx =>
    rw [← hx]
    revert h
    fun_cases punctuation? c <;> intro h <;> cases h <;> trivial
  | operator h hm hs hf hx =>
    rw [← hx]
    refine operator_maximal h ?_
    rw [opensComment_eq]
    simp [opensPair, hs]

end Lexeme

/-! ## Sources -/

/-- **Runs go on as long as they can.** What stands behind a lexeme of a source would not have
continued it: an identifier, blanks, an operator, the identifier behind a backslash, or a bare name.
-/
theorem Text.runs_maximal {source : Text} {k : Nat} {l : Lexeme} (h : source.lexemes[k]? = some l) :
    ∃ front rest, front ++ (l.text ++ rest) = source ∧ front.size = source.extentStart k ∧
      l.MaximalBefore rest := by
  obtain ⟨before, c, t, hscan⟩ := scan_of_getElem? h
  have hmaximal := Lexeme.scan_maximal before c t
  rw [hscan] at hmaximal
  exact ⟨_, _, append_of_getElem? h, (extentStart_eq source k).symm, hmaximal⟩

/-- An operator stops at the dot of a fraction, and a minus sign stands alone before an unsigned
number with one. -/
theorem Text.runs_maximal_fractions :
    (∃ front rest, front ++ ("=-".toList ++ rest) = "a=-.5 -.5U".toList ∧ size front = 1 ∧
      Lexeme.MaximalBefore ⟨.operator, "=-".toList⟩ rest) ∧
    ∃ front rest, front ++ ("-".toList ++ rest) = "a=-.5 -.5U".toList ∧ size front = 6 ∧
      Lexeme.MaximalBefore ⟨.operator, "-".toList⟩ rest := by
  have hone : (lexemes "a=-.5 -.5U".toList)[1]? = some ⟨.operator, "=-".toList⟩ := by decide +kernel
  have hfour : (lexemes "a=-.5 -.5U".toList)[4]? = some ⟨.operator, "-".toList⟩ := by decide +kernel
  have hstarts : extentStart "a=-.5 -.5U".toList 1 = 1 ∧ extentStart "a=-.5 -.5U".toList 4 = 6 := by
    decide +kernel
  have hfirst := runs_maximal hone
  have hsecond := runs_maximal hfour
  rw [hstarts.1] at hfirst
  rw [hstarts.2] at hsecond
  exact ⟨hfirst, hsecond⟩

end LesTokens
