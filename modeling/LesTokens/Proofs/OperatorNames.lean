/-
What the names of operators tell. A name is made in one of three ways: a run of operator characters
or a punctuation mark is named after a `#`, a run behind two backslashes after the first of them,
and an identifier behind a backslash, which may itself start with `#`, as it is (`Lexeme.Named`).
The scanner gives no other lexemes that are named so (`Lexeme.isOperator_of_scan`), and for those
the text can be read off the name (`Lexeme.Named.operatorText_eq`).

**`Text.operators_named`**: two operators of any sources have one name exactly if they have one
kind and one text.
-/
import LesTokens.Proofs.Calls
import LesTokens.Proofs.Interning
import LesTokens.Proofs.TokenKinds

namespace LesTokens

/-! ## Operators as lexemes -/

namespace Lexeme

/-- The punctuation marks that are named as operators are. -/
def namedMarks : List (Tag × Char) := [(.comma, ','), (.semicolon, ';'), (.atSign, '@')]

/-- The lexemes that are named as operators are: a mark, a run of operator characters, and an
identifier behind a backslash. -/
inductive IsOperator : Lexeme → Prop
  | mark {tag : Tag} {c : Char} (h : (tag, c) ∈ namedMarks) : IsOperator ⟨tag, [c]⟩
  | run {t : Text} (hne : t ≠ []) (h : ∀ c ∈ t, isOperatorChar c = true) :
    IsOperator ⟨.operator, t⟩
  | ident {c : Char} {t : Text} (hc : isIdentStart c = true)
    (ht : ∀ d ∈ t, isIdentContinue d = true) : IsOperator ⟨.operator, '\\' :: c :: t⟩

theorem isOperatorChar_of_mem (t : Text) : ∀ c ∈ (operatorTail t).1, isOperatorChar c = true := by
  rw [operatorTail_eq_spanBy]
  refine Text.forall_mem_spanBy (fun c t h => ?_) t
  rw [opensOperatorTail, Bool.and_eq_true, Bool.and_eq_true] at h
  exact h.1.1

theorem operator_isOperator {c : Char} (hc : isOperatorChar c = true) (t : Text) :
    IsOperator (operator c t).1 := by
  rw [operator_eq]
  split
  · rename_i h
    rw [Bool.and_eq_true, decide_eq_true_iff] at h
    obtain ⟨rfl, hstart⟩ := h
    cases t with
    | nil => exact absurd hstart Bool.false_ne_true
    | cons d t =>
      have hd : isIdentStart d = true := hstart
      have htake : (d :: t).takeWhile isIdentContinue = d :: t.takeWhile isIdentContinue :=
        List.takeWhile_cons_of_pos (isIdentContinue_of_isIdentStart hd)
      rw [run, htake]
      exact .ident hd (List.all_eq_true.1 List.all_takeWhile)
  · refine .run (List.cons_ne_nil c _) fun d hd => ?_
    rcases List.mem_cons.1 hd with rfl | hd
    · exact hc
    · exact isOperatorChar_of_mem t d hd

/-- A lexeme is an operator if its tag says so. -/
def OperatorByTag (x : Lexeme × Text) : Prop := x.1.tag.namesOperator = true → IsOperator x.1

theorem OperatorByTag.of_tag {x : Lexeme × Text} (h : x.1.tag.namesOperator = false) :
    OperatorByTag x := by
  intro ht
  rw [h] at ht
  cases ht

theorem quotedForm_byTag (kind : QuotedKind) (t : Text) :
    OperatorByTag (quotedForm (kind.tag true) (kind.tag false) kind.opener kind.quote t) := by
  refine .of_tag ?_
  show Tag.namesOperator (if (QuotedBody.scan kind.quote t).closed then _ else _) = false
  cases kind <;> split <;> rfl

theorem enclosed_byTag {closed unclosed : Tag} (hc : closed.namesOperator = false)
    (hu : unclosed.namesOperator = false) (opener closer t : Text) :
    OperatorByTag (enclosed closed unclosed opener closer t) := by
  refine .of_tag ?_
  unfold enclosed
  split
  · exact hc
  · exact hu

theorem atSign_byTag (t : Text) : OperatorByTag (atSign t) := by
  have hat : IsOperator ⟨.atSign, ['@']⟩ := .mark (by decide)
  unfold atSign
  split
  · unfold doubleAt
    split
    · split
      · rename_i hc
        simp only [Bool.or_eq_true, decide_eq_true_eq] at hc
        rcases hc with rfl | rfl
        · exact quotedForm_byTag .symbol _
        · exact quotedForm_byTag .stringSymbol _
      · dsimp only
        split
        · exact fun _ => hat
        · exact .of_tag rfl
    · exact fun _ => hat
  · exact quotedForm_byTag .ident _
  · dsimp only
    split
    · exact fun _ => hat
    · exact .of_tag rfl

theorem slash_byTag (t : Text) : OperatorByTag (slash t) := by
  unfold slash
  split
  · exact .of_tag rfl
  · exact enclosed_byTag rfl rfl _ _ _
  · exact fun _ => operator_isOperator (by decide) _

theorem minus_byTag (before : Option Char) (t : Text) : OperatorByTag (minus before t) := by
  unfold minus
  split
  · have hminus : IsOperator ⟨.operator, ['-']⟩ := by
      refine .run (List.cons_ne_nil _ _) fun c hc => ?_
      rw [List.mem_singleton.1 hc]
      decide
    dsimp only
    split
    · exact fun _ => hminus
    · exact .of_tag rfl
  · exact fun _ => operator_isOperator (by decide) _

theorem doubleQuote_byTag (t : Text) : OperatorByTag (doubleQuote t) := by
  unfold doubleQuote
  split
  · exact enclosed_byTag rfl rfl _ _ _
  · exact quotedForm_byTag .string _

theorem singleQuote_byTag (t : Text) : OperatorByTag (singleQuote t) := by
  unfold singleQuote
  split
  · exact enclosed_byTag rfl rfl _ _ _
  · exact .of_tag rfl
  · exact quotedForm_byTag .character _

theorem punctuation_byTag {c : Char} {tag : Tag} (h : punctuation? c = some tag) (t : Text) :
    OperatorByTag (single tag c t) := by
  unfold punctuation? at h
  split at h
  · cases h
    exact fun _ => .mark (by decide)
  · cases h
    exact fun _ => .mark (by decide)
  -- Brackets are not named.
  all_goals cases h <;> exact .of_tag rfl

/-- **Scanning gives a lexeme with the tag of an operator only if it is one.** -/
theorem isOperator_of_scan {before : Option Char} {c : Char} {t r : Text} {l : Lexeme}
    (h : scan before c t = (l, r)) : l.tag.namesOperator = true → IsOperator l := by
  suffices hs : OperatorByTag (scan before c t) by
    rw [h] at hs
    exact hs
  cases scanned before c t with
  | newline _ hx | spaces _ hx | shebang _ _ _ hx | ident _ _ hx | number _ hx | unknown _ hx =>
    rw [← hx]
    exact .of_tag rfl
  | minus _ hx =>
    rw [← hx]
    exact minus_byTag before t
  | slash _ hx =>
    rw [← hx]
    exact slash_byTag t
  | doubleQuote _ hx =>
    rw [← hx]
    exact doubleQuote_byTag t
  | singleQuote _ hx =>
    rw [← hx]
    exact singleQuote_byTag t
  | backQuote _ hx =>
    rw [← hx]
    exact quotedForm_byTag .backQuoted t
  | atSign _ hx =>
    rw [← hx]
    exact atSign_byTag t
  | operator hc _ _ _ hx =>
    rw [← hx]
    exact fun _ => operator_isOperator hc t
  | punctuation hp hx =>
    rw [← hx]
    exact punctuation_byTag hp t

/-! ## Names -/

/-- The text of an operator and its name. -/
inductive Named : Text → Text → Prop
  | sharp {c : Char} {t : Text} (h : isIdentContinue c = false) : Named (c :: t) ('#' :: c :: t)
  | suffix (t : Text) : Named ('\\' :: '\\' :: t) ('\\' :: t)
  | ident {c : Char} {t : Text} (hc : isIdentStart c = true)
    (ht : ∀ d ∈ t, isIdentContinue d = true) : Named ('\\' :: c :: t) (c :: t)

/-- The text of the operator that has a name. -/
def operatorText : Text → Text
  | '#' :: t => if t.isEmpty || opensWith isIdentContinue t then '\\' :: '#' :: t else t
  | name => '\\' :: name

/-- **The text of an operator can be read off its name.** -/
theorem Named.operatorText_eq {text name : Text} (h : Named text name) :
    operatorText name = text := by
  cases h with
  | @sharp c t hc =>
    show (if (c :: t).isEmpty || opensWith isIdentContinue (c :: t) then _ else _) = _
    rw [opensWith_cons, hc]
    rfl
  | suffix t => rfl
  | @ident c t hc ht =>
    by_cases hsharp : c = '#'
    · subst hsharp
      have hopens : (t.isEmpty || opensWith isIdentContinue t) = true := by
        cases t with
        | nil => rfl
        | cons d t => simpa [opensWith] using ht d List.mem_cons_self
      exact if_pos hopens
    · unfold operatorText
      split
      · rename_i heq
        exact absurd (List.cons.inj heq).1 hsharp
      · rfl

theorem isIdentContinue_of_isOperatorChar {c : Char} (h : isOperatorChar c = true) :
    isIdentContinue c = false := by
  simp only [isOperatorChar, List.contains_iff_mem] at h
  simpa using List.all_eq_true.1
    (by decide : List.all _ (fun c => !isIdentContinue c) = true) c h

theorem named_of_run {t name : Text} (hne : t ≠ []) (h : ∀ c ∈ t, isOperatorChar c = true)
    (hn : (classifyOperator t).2 = .name name) : Named t name := by
  obtain ⟨c, u, rfl⟩ := List.exists_cons_of_ne_nil hne
  have hsharp : Named (c :: u) ('#' :: c :: u) :=
    .sharp (isIdentContinue_of_isOperatorChar (h c List.mem_cons_self))
  unfold classifyOperator at hn
  split at hn
  · cases hn
    exact hsharp
  · cases hn
    exact hsharp
  · rename_i rest heq
    obtain ⟨rfl, rfl⟩ := List.cons.inj heq
    split at hn
    · -- An identifier starts with no operator character.
      rename_i hstart
      cases u with
      | nil => exact absurd hstart Bool.false_ne_true
      | cons d u =>
        have hd := (excludes_of_isOperatorChar (h d (by simp))).2.2.1
        rw [opensWith_cons, hd] at hstart
        cases hstart
    · split at hn
      · rename_i hback
        cases u with
        | nil => exact absurd hback Bool.false_ne_true
        | cons d u =>
          obtain rfl : d = '\\' := by simpa [opensWith] using hback
          cases hn
          exact .suffix u
      · cases hn
        exact hsharp
  · cases hn
    exact hsharp

/-- **An operator has a name by one of the ways.** -/
theorem IsOperator.named {l : Lexeme} (h : l.IsOperator) {name : Text} {offset : Nat}
    (hn : (l.evaluate offset).1.value = .name name) : Named l.text name := by
  cases h with
  | @mark tag c hm =>
    simp only [namedMarks, List.mem_cons, List.not_mem_nil, or_false, Prod.mk.injEq] at hm
    rcases hm with ⟨rfl, rfl⟩ | ⟨rfl, rfl⟩ | ⟨rfl, rfl⟩ <;> cases hn <;> exact .sharp (by decide)
  | run hne hc => exact named_of_run hne hc hn
  | @ident c t hc ht =>
    have hclass : classifyOperator ('\\' :: c :: t) = (.operator, .name (c :: t)) := if_pos hc
    have hvalue : (classifyOperator ('\\' :: c :: t)).2 = .name name := hn
    rw [hclass] at hvalue
    cases hvalue
    exact .ident hc ht

end Lexeme

/-! ## Operators as tokens -/

theorem Lexeme.eq_of_text {before before' : Option Char} {s s' : Text} {l l' : Lexeme}
    (h : l ∈ s.lexemesAfter before) (h' : l' ∈ s'.lexemesAfter before') (ht : l.text = l'.text) :
    l = l' := by
  have hl := Text.lexemes_of_mem h
  rw [ht, Text.lexemes_of_mem h'] at hl
  exact (List.cons.inj hl).1.symm

theorem Lexeme.value_evaluate (l : Lexeme) (offset offset' : Nat) :
    (l.evaluate offset).1.value = (l.evaluate offset').1.value ∧
      (l.evaluate offset).1.kind = (l.evaluate offset').1.kind := by
  rw [← Nat.zero_add offset, ← Nat.zero_add offset', evaluate_add, evaluate_add]
  exact ⟨rfl, rfl⟩

/-- A token named as operators are, with which nothing is wrong, is an operator with that name. -/
theorem Text.Yields.named {source : Text} {k : Nat} {t : Token} {name : Text}
    (h : source.Yields k t []) (hk : t.kind.namesOperator = true) (hn : t.value = .name name) :
    ∃ l ∈ source.lexemes, ∃ offset, source.slice? t.span.start t.span.stop = some l.text ∧
      (l.evaluate offset).1 = t ∧ Lexeme.Named l.text name := by
  obtain ⟨l, hl, he, hslice⟩ := h.exists_lexeme
  obtain ⟨before, c, s, hscan⟩ := scan_of_getElem? hl
  generalize size ((source.lexemes.take k).flatMap Lexeme.text) = offset at he
  obtain rfl : (l.evaluate offset).1 = t := congrArg Prod.fst he
  have htag : l.tag.namesOperator = true :=
    Evaluation.namesOperator_of_ofLexeme hk (congrArg Prod.snd he)
  exact ⟨l, List.mem_of_getElem? hl, offset, hslice, rfl,
    (Lexeme.isOperator_of_scan hscan htag).named hn⟩

/-- **Operators of one name are of one kind and one text**, and the other way round. The names are
symbols that the calls on a table gave, in whatever order they ran. -/
theorem Text.operators_named {id : Nat} {requests : List (List InternRequest)}
    {schedule : List Nat} {a b : Symbol}
    (ha : a ∈ ((InternRun.start id requests).steps schedule).results)
    (hb : b ∈ ((InternRun.start id requests).steps schedule).results)
    {source source' : Text} {j k : Nat} {t t' : Token}
    (h : source.Yields j t []) (h' : source'.Yields k t' [])
    (hk : t.kind.namesOperator = true) (hk' : t'.kind.namesOperator = true)
    (hn : t.value = .name a.text) (hn' : t'.value = .name b.text) :
    ∃ text text', source.slice? t.span.start t.span.stop = some text ∧
      source'.slice? t'.span.start t'.span.stop = some text' ∧
      (a.same b = true ↔ t.kind = t'.kind ∧ text = text') := by
  have hinv := (InternRun.Inv.start id requests).steps schedule
  obtain ⟨l, hl, offset, hslice, htoken, hnamed⟩ := h.named hk hn
  obtain ⟨l', hl', offset', hslice', htoken', hnamed'⟩ := h'.named hk' hn'
  refine ⟨l.text, l'.text, hslice, hslice', ?_⟩
  rw [hinv.same_iff (hinv.mem_symbols a ha) (hinv.mem_symbols b hb)]
  constructor
  · intro hname
    have htext : l.text = l'.text := by
      rw [← hnamed.operatorText_eq, ← hnamed'.operatorText_eq, hname]
    obtain rfl : l = l' := Lexeme.eq_of_text hl hl' htext
    refine ⟨?_, htext⟩
    rw [← htoken, ← htoken']
    exact (l.value_evaluate _ _).2
  · rintro ⟨-, htext⟩
    obtain rfl : l = l' := Lexeme.eq_of_text hl hl' htext
    have hvalue := (l.value_evaluate offset offset').1
    rw [htoken, htoken', hn, hn'] at hvalue
    exact Value.name.inj hvalue

/-- The identifier `#` behind a backslash, in two sources. Its name is that of no run, although it
opens as the name of a run does. -/
theorem Text.operators_named_sharp :
    ∃ text text', slice? ['x', ' ', '\\', '#'] 2 4 = some text ∧
      slice? ['\\', '#', ';'] 0 2 = some text' ∧
      ((⟨0, 0, ['#']⟩ : Symbol).same ⟨0, 0, ['#']⟩ = true ↔
        Kind.operator = .operator ∧ text = text') := by
  have ha : ⟨0, 0, ['#']⟩ ∈ ((InternRun.start 0 [[⟨['#'], .lent⟩], [⟨['#'], .given⟩]]).steps
      [0, 1, 1, 0, 1, 0, 0, 1, 0, 1]).results := by decide +kernel
  have h : Yields ['x', ' ', '\\', '#'] 2 ⟨.operator, ⟨2, 4⟩, .name ['#']⟩ [] :=
    ⟨by decide +kernel, by decide +kernel⟩
  have h' : Yields ['\\', '#', ';'] 0 ⟨.operator, ⟨0, 2⟩, .name ['#']⟩ [] :=
    ⟨by decide +kernel, by decide +kernel⟩
  exact operators_named ha ha h h' rfl rfl rfl rfl

end LesTokens
