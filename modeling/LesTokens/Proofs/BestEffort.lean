/-
What a token carries when something is wrong with its lexeme. A malformed number counts as zero, a
character literal stands for its first character, and a form that is not closed stands for what it
has up to its end (`Lexeme.Agrees`): the kind is that of the closed form, and the value is one that
the kind may carry.

That is also what the closed form would stand for. Where a form in quotes is open at the end of a
source, the quote can be put behind it, unless a backslash would take the quote with it
(`QuotedBody.endsUnpaired`); the lexemes before it do not notice (`Text.lexemesAfter_close`).

**`Text.best_effort`**: each token agrees with its lexeme, and a form that is closed later keeps its
kind and its value.
-/
import LesTokens.Proofs.Calls
import LesTokens.Proofs.NumberParts
import LesTokens.Proofs.QuotedRoundTrip
import LesTokens.Proofs.TokenKinds

namespace LesTokens

/-! ## The values of forms -/

/-- The closing quotes of a string between three quotes, if they are there. -/
def tripleClosing (quote : Char) (closed : Bool) : Text :=
  if closed then [quote, quote, quote] else []

theorem Enclosed.exists_content {quote : Char} {body : Text} {closed : Bool}
    (h : Enclosed [quote, quote, quote] body closed) :
    ∃ content, body = content ++ tripleClosing quote closed := by
  cases closed with
  | false => exact ⟨body, (List.append_nil body).symm⟩
  | true =>
    obtain ⟨content, hc⟩ := h.closes rfl
    exact ⟨content, hc.symm⟩

theorem Evaluation.tripleQuoted_value {quote : Char} (hq : quote.utf8Size = 1) (content : Text)
    (span : Span) (closed : Bool) :
    (tripleQuoted (quote :: quote :: quote :: (content ++ tripleClosing quote closed)) span
      closed).value = .string content := by
  have hpart := part_append [quote, quote, quote] content (tripleClosing quote closed)
  refine congrArg Value.string ?_
  cases closed <;> simpa [tripleClosing, hq, ← Nat.add_assoc] using hpart

namespace Form

theorem evaluate_quoted {kind : QuotedKind} {content : Text} {closed : Bool}
    (h : (quoted kind content closed).Proper) (offset : Nat) :
    ((quoted kind content closed).lexeme.evaluate offset).1 =
      ⟨kind.tokenKind, .ofLength offset (quoted kind content closed).lexeme.text.size,
        kind.value (EscapeUnit.decodedText content)⟩ := by
  have he := Evaluation.ofLexeme_quoted h
    (.ofLength offset (quoted kind content closed).lexeme.text.size)
  exact congrArg (Evaluation.token · _) he

theorem evaluate_tripleQuoted {quote : Char} {content : Text} {closed : Bool}
    (h : (tripleQuoted quote (content ++ tripleClosing quote closed) closed).Proper)
    (offset : Nat) :
    ((tripleQuoted quote (content ++ tripleClosing quote closed) closed).lexeme.evaluate
        offset).1.kind = .string ∧
      ((tripleQuoted quote (content ++ tripleClosing quote closed) closed).lexeme.evaluate
        offset).1.value = .string content := by
  have hquote : quote = '\x22' ∨ quote = '\x27' := by simpa using h.1
  have hsize : quote.utf8Size = 1 := by rcases hquote with rfl | rfl <;> decide
  have hvalue := Evaluation.tripleQuoted_value hsize content
    (.ofLength offset
      (tripleQuoted quote (content ++ tripleClosing quote closed) closed).lexeme.text.size) closed
  cases closed <;> exact ⟨rfl, hvalue⟩

theorem eq_character_of_kind {form : Form} (h : form.Proper) {offset : Nat}
    (hk : (form.lexeme.evaluate offset).1.kind = .char) :
    (∃ content closed, form = .quoted .character content closed) ∨
      ∃ line, form = .emptyCharacter line := by
  cases form with
  | quoted kind content closed =>
    rw [evaluate_quoted h] at hk
    cases kind with
    | character => exact .inl ⟨content, closed, rfl⟩
    | _ => cases hk
  | emptyCharacter line => exact .inr ⟨line, rfl⟩
  | faultless tag text =>
    have htag : tag.isFaultless = true := h
    cases tag with
    | operator =>
      obtain ⟨kind, name, hclass, hkind⟩ := classifyOperator_spec text
      have hk : (classifyOperator text).1 = .char := hk
      rw [hclass] at hk
      obtain rfl : kind = .char := hk
      cases hkind
    | ident | atSign | comma | semicolon | leftParen | rightParen | leftBrace | rightBrace
    | leftBracket | rightBracket | spaces | newline | lineComment | shebang => cases hk
    | _ => cases htag
  | number n negative =>
    obtain ⟨v, ds, he, -⟩ := Evaluation.number_numeric (n.signed negative)
      (.ofLength offset (number n negative).lexeme.text.size)
    have hk : (Evaluation.number (n.signed negative) _).kind = .char := hk
    rw [he] at hk
    cases hk
  | comment body closed | tripleQuoted quote body closed => cases closed <;> cases hk
  | bareIdent name | bareSymbol name =>
    obtain ⟨v, ds, he⟩ := Evaluation.escaped_eq _ _ _
      (.ofLength offset _) true
    have hk : (Evaluation.escaped _ _ _ _ _).kind = .char := hk
    rw [he] at hk
    cases hk
  | unknown c => cases hk

theorem eq_open_of_mem_defects {form : Form} {delimiter : Text}
    (h : .unterminatedString delimiter ∈ form.defects) :
    (∃ kind content, form = .quoted kind content false ∧ [kind.quote] = delimiter) ∨
      ∃ quote body, form = .tripleQuoted quote body false ∧ [quote, quote, quote] = delimiter := by
  cases form with
  | quoted kind content closed =>
    cases closed with
    | false =>
      have hd : delimiter = [kind.quote] := by
        simpa [defects, QuotedKind.countDefects] using h
      exact .inl ⟨kind, content, rfl, hd.symm⟩
    | true => simp [defects, QuotedKind.countDefects] at h
  | tripleQuoted quote body closed =>
    cases closed with
    | false =>
      have hd : delimiter = [quote, quote, quote] := by simpa [defects] using h
      exact .inr ⟨quote, body, rfl, hd.symm⟩
    | true => simp [defects] at h
  | number n negative =>
    rw [defects] at h
    split at h <;> simp at h
  | comment body closed => cases closed <;> simp [defects] at h
  | _ => simp [defects] at h

end Form

/-! ## Tokens and their lexemes -/

/-- What a token carries, by the form of its lexeme, whether or not something is wrong with it. A
form between quotes has the kind of the closed form also if it is open, and its content then goes
on from the opening quotes to the end of the lexeme. -/
structure Lexeme.Agrees (l : Lexeme) (t : Token) (ds : List Diagnostic) : Prop where
  accepts : t.kind.accepts t.value = true
  malformedNumber : ∀ e, .malformedNumber e ∈ ds.map (·.defect) →
    t.kind = .number ∧ t.value = .integer .int32 0
  unterminated : ∀ delimiter, .unterminatedString delimiter ∈ ds.map (·.defect) →
    (∃ kind content, (Form.quoted kind content false).Proper ∧
      (Form.quoted kind content false).lexeme = l ∧ [kind.quote] = delimiter) ∨
    ∃ quote body, (Form.tripleQuoted quote body false).Proper ∧
      (Form.tripleQuoted quote body false).lexeme = l ∧ [quote, quote, quote] = delimiter
  quoted : ∀ kind content closed, (Form.quoted kind content closed).Proper →
    (Form.quoted kind content closed).lexeme = l →
    t.kind = kind.tokenKind ∧ t.value = kind.value (EscapeUnit.decodedText content)
  tripleQuoted : ∀ quote body closed, (Form.tripleQuoted quote body closed).Proper →
    (Form.tripleQuoted quote body closed).lexeme = l → t.kind = .string ∧
      ∃ content, body = content ++ tripleClosing quote closed ∧ t.value = .string content
  character : t.kind = .char → ∃ content behind,
    l.text = '\x27' :: (content ++ behind) ∧
    QuotedBody.Content '\x27' (!behind.isEmpty) content ∧ behind.head?.all (· = '\x27') = true ∧
    t.value = .char ((EscapeUnit.decodedText content).headD '\x00')

/-- **A token agrees with its lexeme.** -/
theorem Lexeme.agrees {form : Form} (h : form.Proper) {offset : Nat} {t : Token}
    {ds : List Diagnostic} (he : form.lexeme.evaluate offset = (t, ds)) :
    form.lexeme.Agrees t ds := by
  have ht : (form.lexeme.evaluate offset).1 = t := congrArg Prod.fst he
  have hdefects : ds.map (·.defect) = form.defects := by
    rw [← form.map_defect_diagnostics offset, ← form.evaluate_eq h, he]
  constructor
  case accepts =>
    rw [← ht]
    exact Evaluation.accepts _ _ _
  case malformedNumber =>
    intro e hmem
    rw [hdefects] at hmem
    obtain ⟨n, negative, rfl, hread⟩ := Form.eq_number_of_mem_defects hmem
    have hnumber (span : Span) : (Evaluation.number (n.signed negative) span).kind = .number ∧
        (Evaluation.number (n.signed negative) span).value = .integer .int32 0 := by
      rw [Evaluation.number, hread]
      exact ⟨rfl, rfl⟩
    rw [← ht]
    exact hnumber _
  case unterminated =>
    intro delimiter hmem
    rw [hdefects] at hmem
    rcases Form.eq_open_of_mem_defects hmem with ⟨kind, content, rfl, hd⟩ | ⟨quote, body, rfl, hd⟩
    · exact .inl ⟨kind, content, h, rfl, hd⟩
    · exact .inr ⟨quote, body, h, rfl, hd⟩
  case quoted =>
    intro kind content closed hproper hl
    rw [← hl, Form.evaluate_quoted hproper] at ht
    rw [← ht]
    exact ⟨rfl, rfl⟩
  case tripleQuoted =>
    intro quote body closed hproper hl
    obtain ⟨content, rfl⟩ := hproper.2.exists_content
    obtain ⟨hkind, hvalue⟩ := Form.evaluate_tripleQuoted hproper offset
    rw [← ht, ← hl]
    exact ⟨hkind, content, rfl, hvalue⟩
  case character =>
    intro hk
    rw [← ht] at hk
    rcases Form.eq_character_of_kind h hk with ⟨content, closed, rfl⟩ | ⟨line, rfl⟩
    · refine ⟨content, QuotedBody.closing '\x27' closed, rfl, ?_, ?_, ?_⟩
      · cases closed <;> exact h.1
      · cases closed <;> rfl
      · rw [← ht, Form.evaluate_quoted h]
        rfl
    · refine ⟨[], '\x27' :: line, rfl, .nil, rfl, ?_⟩
      rw [← ht, EscapeUnit.decodedText, EscapeUnit.units]
      rfl

/-! ## Closing what is open -/

namespace QuotedBody

/-- Whether a content ends in a backslash that is not paired with another one. -/
def endsUnpaired (content : Text) : Bool :=
  (content.reverse.takeWhile (· = '\\')).length % 2 = 1

theorem endsUnpaired_append {u : Text} (hu : endsUnpaired u = false) (t : Text) :
    endsUnpaired (u ++ t) = endsUnpaired t := by
  rw [endsUnpaired, decide_eq_false_iff_not] at hu
  rw [endsUnpaired, endsUnpaired, List.reverse_append, List.takeWhile_append]
  split
  · rename_i hall
    have hlength : (t.reverse ++ u.reverse.takeWhile (· = '\\')).length % 2 =
        (t.reverse.takeWhile (· = '\\')).length % 2 := by
      rw [List.length_append, hall]
      omega
    rw [hlength]
  · rfl

theorem endsUnpaired_singleton {c : Char} (hc : c ≠ '\\') : endsUnpaired [c] = false := by
  simp [endsUnpaired, hc]

theorem endsUnpaired_pair (c : Char) : endsUnpaired ['\\', c] = false := by
  by_cases hc : c = '\\'
  · subst hc
    decide
  · simp [endsUnpaired, hc]

/-- A content that is not closed can be, if no backslash would take the quote with it. -/
theorem Content.close {quote : Char} {content : Text} (h : Content quote false content)
    (he : endsUnpaired content = false) : Content quote true content := by
  induction h with
  | nil => exact .nil
  | @plain c t hc ht ih =>
    have hb : c ≠ '\\' := by
      rintro rfl
      simp [isPlain] at hc
    have hrest := endsUnpaired_append (endsUnpaired_singleton hb) t
    exact .plain hc (ih (hrest.symm.trans he))
  | @pair c t hc ht ih =>
    have hrest := endsUnpaired_append (endsUnpaired_pair c) t
    exact .pair hc (ih (hrest.symm.trans he))
  | lone h => exact absurd he (by decide)

end QuotedBody

theorem Form.text_closed (kind : QuotedKind) (content : Text) :
    (quoted kind content true).lexeme.text =
      (quoted kind content false).lexeme.text ++ [kind.quote] := by
  simp [lexeme, QuotedBody.closing]

/-- An open form with nothing in the way of its quote. -/
structure QuotedKind.Closable (kind : QuotedKind) (content : Text) : Prop where
  proper : (Form.quoted kind content false).Proper
  paired : QuotedBody.endsUnpaired content = false
  character : kind = .character → content ≠ []

namespace QuotedKind.Closable

variable {kind : QuotedKind} {content : Text}

theorem proper_closed (h : kind.Closable content) : (Form.quoted kind content true).Proper :=
  ⟨h.proper.1.close h.paired, fun hk _ => h.character hk⟩

theorem scan (h : kind.Closable content) {before : Option Char} {c : Char} {t : Text}
    (hscan : Lexeme.scan before c t = ((Form.quoted kind content false).lexeme, [])) :
    Lexeme.scan before c (t ++ [kind.quote]) = ((Form.quoted kind content true).lexeme, []) := by
  have htext : (Form.quoted kind content false).lexeme.text ++ [] = c :: t :=
    (Lexeme.Splits.of_scan hscan).2
  refine Lexeme.scan_quoted h.proper_closed (fun _ _ => rfl) before ?_
  rw [Form.text_closed, List.append_nil, ← List.cons_append, ← htext, List.append_nil]

theorem follows (h : kind.Closable content) {l : Lexeme} {u r : Text}
    (hr : u ++ (Form.quoted kind content false).lexeme.text = r) :
    l.Follows r (r ++ [kind.quote]) := by
  by_cases hlength : 2 ≤ r.length
  · exact .more hlength _
  · -- Shorter than two characters, the form is its quote.
    have hsum := congrArg List.length hr
    simp only [Form.lexeme, QuotedKind.opener, QuotedBody.closing, List.length_append,
      List.length_singleton, Bool.false_eq_true, if_false, List.length_nil] at hsum
    obtain rfl : u = [] := List.eq_nil_of_length_eq_zero (by omega)
    obtain rfl : content = [] := List.eq_nil_of_length_eq_zero (by omega)
    cases kind with
    | string => exact .quote (.inl hr.symm) _
    | backQuoted => exact .quote (.inr hr.symm) _
    | character => exact absurd rfl (h.character rfl)
    | ident | symbol | stringSymbol =>
      simp only [QuotedKind.sigil, List.length_cons, List.length_nil] at hsum
      omega

end QuotedKind.Closable

namespace Text

/-- **The quote behind an open form at the end closes it**, and the lexemes before it stay. -/
theorem lexemesAfter_close {kind : QuotedKind} {content : Text} (h : kind.Closable content)
    {before : Option Char} {t : Text} {ls : List Lexeme}
    (hl : t.lexemesAfter before = ls ++ [(Form.quoted kind content false).lexeme]) :
    (t ++ [kind.quote]).lexemesAfter before =
      ls ++ [(Form.quoted kind content true).lexeme] := by
  induction before, t using lexing_induct generalizing ls with
  | nil before => simp [lexemesAfter_nil] at hl
  | step before c t l r hscan ih =>
    rw [lexemesAfter_cons hscan] at hl
    have hr := flatMap_text_lexemesAfter l.text.getLast? r
    cases ls with
    | nil =>
      obtain ⟨rfl, hnil⟩ := List.cons.inj hl
      rw [hnil] at hr
      obtain rfl : r = [] := hr.symm
      rw [List.cons_append, lexemesAfter_cons (h.scan hscan), lexemesAfter_nil]
      rfl
    | cons l' ls =>
      obtain ⟨rfl, hrest⟩ := List.cons.inj hl
      have hrest : r.lexemesAfter l.text.getLast? =
        ls ++ [(Form.quoted kind content false).lexeme] := hrest
      rw [hrest, List.flatMap_append, List.flatMap_singleton] at hr
      rw [List.cons_append, lexemesAfter_cons (Lexeme.scan_append hscan (h.follows hr)), ih hrest]
      rfl

theorem lexemes_of_last {source : Text} {k : Nat} {l : Lexeme} (hl : source.lexemes[k]? = some l)
    (hend : size ((source.lexemes.take k).flatMap Lexeme.text) + l.text.size = source.size) :
    source.lexemes = source.lexemes.take k ++ [l] := by
  have hsource := append_of_getElem? hl
  have hdrop : source.lexemes.drop (k + 1) = [] := by
    cases hrest : source.lexemes.drop (k + 1) with
    | nil => rfl
    | cons l' ls =>
      have hdropped : l' ∈ source.lexemes.drop (k + 1) := by
        rw [hrest]
        exact List.mem_cons_self
      have hmem : l' ∈ source.lexemesAfter none := List.mem_of_mem_drop hdropped
      have hpos := size_pos (text_ne_nil_of_mem l' hmem)
      have hsize := congrArg size hsource
      rw [← lexemes_eq, hrest] at hsize
      simp only [size_append, List.flatMap_cons] at hsize
      omega
  obtain ⟨hk, hget⟩ := List.getElem?_eq_some_iff.1 hl
  rw [← hget, List.take_append_getElem, ← List.append_nil (List.take _ _), ← hdrop,
    List.take_append_drop]

theorem tokens_of_last {source : Text} {ls : List Lexeme} {l : Lexeme}
    (h : source.lexemes = ls ++ [l]) : source.tokenize.tokens.take ls.length =
        (Lexeme.evaluateAll 0 ls).map Prod.fst ∧
      source.tokenize.tokens = (Lexeme.evaluateAll 0 ls).map Prod.fst ++
        [(l.evaluate (size (ls.flatMap Lexeme.text))).1] := by
  have htokens : source.tokenize.tokens = (Lexeme.evaluateAll 0 ls).map Prod.fst ++
      [(l.evaluate (size (ls.flatMap Lexeme.text))).1] := by
    rw [tokenize_eq, h, Lexeme.evaluateAll_append, List.map_append, Nat.zero_add]
    rfl
  refine ⟨?_, htokens⟩
  rw [htokens]
  exact List.take_left' (by rw [List.length_map, Lexeme.length_evaluateAll])

/-- **The quote behind an open form at the end changes no token but the last**, which ends one byte
later. -/
theorem tokens_close {kind : QuotedKind} {content : Text} (h : kind.Closable content)
    {source : Text} {ls : List Lexeme} {t : Token}
    (hl : source.lexemes = ls ++ [(Form.quoted kind content false).lexeme])
    (ht : ((Form.quoted kind content false).lexeme.evaluate
      (size (ls.flatMap Lexeme.text))).1 = t) :
    (source ++ [kind.quote]).tokenize.tokens = source.tokenize.tokens.take ls.length ++
      [⟨t.kind, ⟨t.span.start, t.span.stop + 1⟩, t.value⟩] := by
  have hclosed : (source ++ [kind.quote]).lexemes =
      ls ++ [(Form.quoted kind content true).lexeme] := lexemesAfter_close h hl
  have hsize : size (Form.quoted kind content true).lexeme.text =
      size (Form.quoted kind content false).lexeme.text + 1 := by
    rw [Form.text_closed, size_append, size_cons, kind.utf8Size_quote, size_nil]
  rw [(tokens_of_last hclosed).2, (tokens_of_last hl).1, ← ht, Form.evaluate_quoted h.proper,
    Form.evaluate_quoted h.proper_closed, hsize]
  rfl

/-- **Each token agrees with its lexeme, also if something is wrong with it.** A form that is open
at the end of the source is closed by its quote there, and has the kind and the value it had. -/
theorem best_effort {source : Text} {k : Nat} {t : Token}
    (h : source.tokenize.tokens[k]? = some t) :
    ∃ l ds, source.lexemes[k]? = some l ∧ source.Yields k t ds ∧
      source.slice? t.span.start t.span.stop = some l.text ∧ l.Agrees t ds ∧
      ∀ kind content, QuotedKind.Closable kind content →
        (Form.quoted kind content false).lexeme = l → t.span.stop = source.size →
        (source ++ [kind.quote]).lexemes =
            source.lexemes.take k ++ [(Form.quoted kind content true).lexeme] ∧
          (source ++ [kind.quote]).tokenize.tokens = source.tokenize.tokens.take k ++
            [⟨t.kind, ⟨t.span.start, t.span.stop + 1⟩, t.value⟩] := by
  obtain ⟨ds, hyields⟩ := exists_yields h
  obtain ⟨l, hl, he, hslice⟩ := hyields.exists_lexeme
  obtain ⟨form, hproper, hform⟩ := exists_form_of_mem (List.mem_of_getElem? hl)
  refine ⟨l, ds, hl, hyields, hslice, ?_, fun kind content hclosable hopen hend => ?_⟩
  · rw [← hform] at he ⊢
    exact Lexeme.agrees hproper he
  · have ht : (l.evaluate (size ((source.lexemes.take k).flatMap Lexeme.text))).1 = t :=
      congrArg Prod.fst he
    have hlast := lexemes_of_last hl (hend ▸ congrArg (fun t => t.span.stop) ht)
    have hlength : (source.lexemes.take k).length = k :=
      List.length_take_of_le (Nat.le_of_lt (List.getElem?_eq_some_iff.1 hl).1)
    rw [← hopen] at hlast ht
    have htokens := tokens_close hclosable hlast ht
    rw [hlength] at htokens
    exact ⟨lexemesAfter_close hclosable hlast, htokens⟩

/-- A character literal behind a blank that is not closed, with a bad escape in it: it stands for
the backslash, and so it does when it is closed. -/
theorem best_effort_open_character :
    ∃ l ds, (lexemes [' ', '\x27', '\\', 'q'])[1]? = some l ∧
      Yields [' ', '\x27', '\\', 'q'] 1 ⟨.char, ⟨1, 4⟩, .char '\\'⟩ ds ∧
      l.Agrees ⟨.char, ⟨1, 4⟩, .char '\\'⟩ ds ∧
      (tokenize [' ', '\x27', '\\', 'q', '\x27']).tokens =
        [⟨.spaces, ⟨0, 1⟩, .absent⟩, ⟨.char, ⟨1, 5⟩, .char '\\'⟩] := by
  have h : (tokenize [' ', '\x27', '\\', 'q']).tokens[1]? = some ⟨.char, ⟨1, 4⟩, .char '\\'⟩ := by
    decide +kernel
  obtain ⟨l, ds, hl, hyields, -, hagrees, hclose⟩ := best_effort h
  have hclosable : QuotedKind.character.Closable ['\\', 'q'] :=
    ⟨⟨.pair (by decide) .nil, by simp⟩, by decide, by simp⟩
  have hopen : (lexemes [' ', '\x27', '\\', 'q'])[1]? =
      some (Form.quoted .character ['\\', 'q'] false).lexeme := by decide +kernel
  have hlexeme := Option.some.inj (hopen.symm.trans hl)
  have htokens := (hclose .character ['\\', 'q'] hclosable hlexeme (by decide)).2
  have htake : (tokenize [' ', '\x27', '\\', 'q']).tokens.take 1 =
      [⟨.spaces, ⟨0, 1⟩, .absent⟩] := by decide +kernel
  rw [htake] at htokens
  exact ⟨l, ds, hl, hyields, hagrees, htokens⟩

end Text

end LesTokens
