/-
What is wrong with a lexeme, and that it is reported once. The form a lexeme is written in decides
on its defects (`Form.defects`): an unclosed form is one, so is each invalid unit of a content, and
so is a character literal that does not stand for one character. Evaluation reports them each where
it stands (`Form.diagnostics`, `Form.evaluate_eq`), although it takes the lexeme apart anew by its
tag and its length.

**`Text.defects_reported`**: with each token the sink takes the defects of its form and no others.
-/
import LesTokens.Proofs.Forms
import LesTokens.Proofs.Relexing

namespace LesTokens

/-! ## Escapes -/

namespace EscapeUnit

theorem units_cons (c : Char) (t : Text) :
    units (c :: t) = first c t :: units ((c :: t).drop (first c t).text.length) := by
  rw [units]

theorem first_of_ne {c : Char} (h : c ≠ '\\') (t : Text) : first c t = ⟨[c], some c⟩ :=
  if_pos h

theorem units_of_not_mem {content : Text} (h : '\\' ∉ content) :
    units content = content.map fun c => ⟨[c], some c⟩ := by
  induction content with
  | nil => rw [units]; rfl
  | cons c t ih =>
    rw [List.mem_cons, not_or] at h
    rw [units_cons, first_of_ne (Ne.symm h.1), List.map_cons]
    exact congrArg _ (ih h.2)

/-- What the units of a content stand for. -/
def decodedText (content : Text) : Text := (units content).flatMap decoded

end EscapeUnit

theorem escapeDiagnostics_of_valid {units : List EscapeUnit} (h : ∀ u ∈ units, u.char ≠ none)
    (offset : Nat) : escapeDiagnostics offset units = [] := by
  induction units generalizing offset with
  | nil => rfl
  | cons u units ih =>
    cases hu : u.char with
    | none => exact absurd hu (h u List.mem_cons_self)
    | some c =>
      simp only [escapeDiagnostics, hu]
      exact ih (fun v hv => h v (List.mem_cons_of_mem u hv)) _

theorem map_defect_escapeDiagnostics (offset : Nat) (units : List EscapeUnit) :
    (escapeDiagnostics offset units).map (·.defect) =
      (units.filter (·.char.isNone)).map (.unrecognizedEscape ·.text) := by
  induction units generalizing offset with
  | nil => rfl
  | cons u units ih => cases hu : u.char <;> simp [escapeDiagnostics, hu, ih]

/-- The fast way out, for a content without a backslash, gives what its units give. -/
theorem unescape?_getD (content : Text) (offset : Nat) :
    (unescape? content offset).getD (content, []) = (EscapeUnit.decodedText content,
      escapeDiagnostics offset (EscapeUnit.units content)) := by
  unfold unescape? EscapeUnit.decodedText
  split
  · rfl
  · rename_i h
    have hmem : '\\' ∉ content := by simpa using h
    have hvalid : escapeDiagnostics offset (EscapeUnit.units content) = [] := by
      refine escapeDiagnostics_of_valid (fun u hu => ?_) offset
      rw [EscapeUnit.units_of_not_mem hmem, List.mem_map] at hu
      obtain ⟨c, -, rfl⟩ := hu
      simp
    rw [hvalid, EscapeUnit.units_of_not_mem hmem]
    simp [List.flatMap_map, EscapeUnit.decoded]

/-! ## Evaluation, form by form -/

/-- The kind of token that a form between quotes gives. -/
def QuotedKind.tokenKind : QuotedKind → Kind
  | string => .string
  | character => .char
  | backQuoted => .backQuoted
  | ident => .ident
  | symbol | stringSymbol => .symbol

/-- The value of a form between quotes that stands for a text. A character literal has room for one
character. -/
def QuotedKind.value (kind : QuotedKind) (s : Text) : Value :=
  match kind with
  | string | backQuoted => .string s
  | character => .char (s.headD '\x00')
  | ident | symbol | stringSymbol => .name s

/-- A closed character literal has to stand for one character. -/
def QuotedKind.countDefects (kind : QuotedKind) (content : Text) (closed : Bool) : List Defect :=
  if kind = .character ∧ closed = true ∧ (EscapeUnit.decodedText content).length ≠ 1 then
    [.characterCount (EscapeUnit.decodedText content).length]
  else []

namespace Evaluation

theorem part_append (a b c : Text) :
    part (a ++ (b ++ c)) a.size (a.size + b.size) = b := by
  rw [part, Text.slice?_size_append, Option.getD_some]

theorem part_append_right (a b : Text) : part (a ++ b) a.size (a ++ b).size = b := by
  have h := part_append a b []
  rwa [List.append_nil, ← Text.size_append] at h

theorem quotedContent_eq {quote : Char} (hq : quote.utf8Size = 1) (content : Text) (span : Span)
    (closed : Bool) :
    quotedContent (quote :: (content ++ QuotedBody.closing quote closed)) span quote closed =
      (EscapeUnit.decodedText content,
        (if closed then [] else [⟨span, .unterminatedString [quote]⟩]) ++
          escapeDiagnostics (span.start + 1) (EscapeUnit.units content)) := by
  have hpart : part (quote :: (content ++ QuotedBody.closing quote closed)) 1
      (if closed then Text.size (quote :: (content ++ QuotedBody.closing quote closed)) - 1
        else Text.size (quote :: (content ++ QuotedBody.closing quote closed))) = content := by
    have h := part_append [quote] content (QuotedBody.closing quote closed)
    cases closed <;> simpa [QuotedBody.closing, hq, ← Nat.add_assoc] using h
  have hun := unescape?_getD content (span.start + 1)
  unfold quotedContent
  dsimp only
  rw [hpart]
  cases he : unescape? content (span.start + 1) with
  | none =>
    rw [he, Option.getD_none, Prod.mk.injEq] at hun
    rw [← hun.1, ← hun.2, List.append_nil]
  | some x =>
    rw [he, Option.getD_some] at hun
    rw [hun]

theorem character_eq {content : Text} {closed : Bool}
    (h : QuotedBody.Content '\x27' closed content) (hne : closed = true → content ≠ [])
    (span : Span) :
    character ('\x27' :: (content ++ QuotedBody.closing '\x27' closed)) span closed =
      ⟨.char, .char ((EscapeUnit.decodedText content).headD '\x00'),
        (if closed then [] else [⟨span, .unterminatedString ['\x27']⟩]) ++
          escapeDiagnostics (span.start + 1) (EscapeUnit.units content) ++
          (QuotedKind.character.countDefects content closed).map fun defect => ⟨span, defect⟩⟩ := by
  have hopen : ['\x27', '\x27'].isPrefixOf
      ('\x27' :: (content ++ QuotedBody.closing '\x27' closed)) = false := by
    cases h with
    | nil =>
      cases closed with
      | true => exact absurd rfl (hne rfl)
      | false => rfl
    | @plain c t hc ht =>
      have hq : '\x27' ≠ c := by
        rintro rfl
        exact absurd hc (by decide)
      simp [List.isPrefixOf, hq]
    | pair hc ht => rfl
    | lone hclosed => rfl
  unfold character
  rw [hopen, quotedContent_eq (by decide)]
  by_cases hcount : closed = true ∧ (EscapeUnit.decodedText content).length ≠ 1 <;>
    simp [QuotedKind.countDefects, hcount]

theorem quoted_eq (kind : Kind) {quote : Char} (hq : quote.utf8Size = 1) (content : Text)
    (span : Span) (closed : Bool) :
    quoted kind (quote :: (content ++ QuotedBody.closing quote closed)) span quote closed =
      ⟨kind, .string (EscapeUnit.decodedText content),
        (if closed then [] else [⟨span, .unterminatedString [quote]⟩]) ++
          escapeDiagnostics (span.start + 1) (EscapeUnit.units content)⟩ := by
  unfold quoted
  rw [quotedContent_eq hq]

theorem escaped_quoted (kind : Kind) (sigil : Text) {quote : Char}
    (hq : quote = '\x60' ∨ quote = '\x22') (content : Text) (span : Span) (closed : Bool) :
    escaped kind (sigil ++ quote :: (content ++ QuotedBody.closing quote closed)) sigil.size span
        closed =
      ⟨kind, .name (EscapeUnit.decodedText content),
        (if closed then []
          else [⟨⟨span.start + sigil.size, span.stop⟩, .unterminatedString [quote]⟩]) ++
          escapeDiagnostics (span.start + sigil.size + 1) (EscapeUnit.units content)⟩ := by
  have hsize : quote.utf8Size = 1 := by rcases hq with rfl | rfl <;> decide
  have hquote : (decide (quote = '\x60') || decide (quote = '\x22')) = true := by simpa using hq
  unfold escaped
  dsimp only
  rw [part_append_right]
  dsimp only [List.head?_cons]
  rw [if_pos hquote, quotedContent_eq hsize]

/-- **A lexeme between quotes stands for its decoded content.** -/
theorem ofLexeme_quoted {kind : QuotedKind} {content : Text} {closed : Bool}
    (h : (Form.quoted kind content closed).Proper) (span : Span) :
    ofLexeme (kind.tag closed) (Form.quoted kind content closed).lexeme.text span =
      ⟨kind.tokenKind, kind.value (EscapeUnit.decodedText content),
        (if closed then []
          else [⟨⟨span.start + kind.sigil.size, span.stop⟩, .unterminatedString [kind.quote]⟩]) ++
          escapeDiagnostics (span.start + kind.opener.size) (EscapeUnit.units content) ++
          (kind.countDefects content closed).map fun defect => ⟨span, defect⟩⟩ := by
  obtain ⟨hcontent, hne⟩ := h
  have hcount (hk : kind ≠ .character) : kind.countDefects content closed = [] := by
    simp [QuotedKind.countDefects, hk]
  -- Each kind has its own tags, and so its own way through the evaluation.
  cases kind with
  | character => cases closed <;> exact character_eq hcontent (hne rfl) span
  | string =>
    rw [hcount (by simp), List.map_nil, List.append_nil]
    cases closed <;> exact quoted_eq .string (by decide) content span _
  | backQuoted =>
    rw [hcount (by simp), List.map_nil, List.append_nil]
    cases closed <;> exact quoted_eq .backQuoted (by decide) content span _
  | ident =>
    rw [hcount (by simp), List.map_nil, List.append_nil]
    cases closed <;> exact escaped_quoted .ident ['@'] (.inl rfl) content span _
  | symbol =>
    rw [hcount (by simp), List.map_nil, List.append_nil]
    cases closed <;> exact escaped_quoted .symbol ['@', '@'] (.inl rfl) content span _
  | stringSymbol =>
    rw [hcount (by simp), List.map_nil, List.append_nil]
    cases closed <;> exact escaped_quoted .symbol ['@', '@'] (.inr rfl) content span _

theorem escaped_bare (kind : Kind) (sigil : Text) {name : Text}
    (h : ∀ c ∈ name, isEscapeRunChar c = true) (span : Span) (closed : Bool) :
    (escaped kind (sigil ++ name) sigil.size span closed).diagnostics = [] := by
  unfold escaped
  dsimp only
  rw [part_append_right]
  cases name with
  | nil => rfl
  | cons c name =>
    have hc := h c List.mem_cons_self
    have h1 : c ≠ '\x60' := ne_of_class hc (by decide)
    have h2 : c ≠ '\x22' := ne_of_class hc (by decide)
    simp [h1, h2]

end Evaluation

/-! ## Forms -/

namespace Form

/-- What is wrong with a lexeme, by its form. -/
def defects : Form → List Defect
  | faultless .. | bareIdent _ | bareSymbol _ => []
  | number n negative =>
    match readNumber (n.signed negative) with
    | .ok _ => []
    | .error error => [.malformedNumber error]
  | unknown c => [.unexpectedCharacter c]
  | comment _ closed => if closed then [] else [.unterminatedComment]
  | tripleQuoted quote _ closed =>
    if closed then [] else [.unterminatedString [quote, quote, quote]]
  | quoted kind content closed =>
    (if closed then [] else [.unterminatedString [kind.quote]]) ++
      ((EscapeUnit.units content).filter (·.char.isNone)).map (.unrecognizedEscape ·.text) ++
      kind.countDefects content closed
  | emptyCharacter _ => [.characterCount 0]

/-- What is wrong with a lexeme that stands at an offset, and where. -/
def diagnostics (offset : Nat) (form : Form) : List Diagnostic :=
  let span := Span.ofLength offset form.lexeme.text.size
  match form with
  | quoted kind content closed =>
    (if closed then []
      else [⟨⟨offset + kind.sigil.size, span.stop⟩, .unterminatedString [kind.quote]⟩]) ++
      escapeDiagnostics (offset + kind.opener.size) (EscapeUnit.units content) ++
      (kind.countDefects content closed).map fun defect => ⟨span, defect⟩
  | form => form.defects.map fun defect => ⟨span, defect⟩

theorem map_defect_diagnostics (offset : Nat) (form : Form) :
    (form.diagnostics offset).map (·.defect) = form.defects := by
  cases form with
  | quoted kind content closed =>
    simp only [diagnostics, defects, List.map_append, map_defect_escapeDiagnostics, List.map_map,
      Function.comp_def, List.map_id']
    cases closed <;> rfl
  | _ => simp [diagnostics, Function.comp_def]

/-- **A lexeme is reported by its form.** -/
theorem evaluate_eq {form : Form} (h : form.Proper) (offset : Nat) :
    (form.lexeme.evaluate offset).2 = form.diagnostics offset := by
  cases form with
  | faultless tag text =>
    have htag : tag.isFaultless = true := h
    cases tag <;> simp_all [Tag.isFaultless, Lexeme.evaluate, lexeme, Evaluation.ofLexeme,
      Evaluation.operator, diagnostics, defects]
  | number n negative =>
    simp only [Lexeme.evaluate, lexeme, Evaluation.ofLexeme, Evaluation.number, diagnostics,
      defects]
    cases readNumber (n.signed negative) <;> rfl
  | unknown c => rfl
  | comment body closed => cases closed <;> rfl
  | tripleQuoted quote body closed =>
    have hq : quote = '\x22' ∨ quote = '\x27' := by simpa using h.1
    rcases hq with rfl | rfl <;> cases closed <;> rfl
  | quoted kind content closed =>
    exact congrArg Evaluation.diagnostics (Evaluation.ofLexeme_quoted h _)
  | emptyCharacter line => rfl
  | bareIdent name => exact Evaluation.escaped_bare .ident ['@'] h _ true
  | bareSymbol name => exact Evaluation.escaped_bare .symbol ['@', '@'] h _ true

end Form

/-! ## Runs -/

theorem Text.exists_form_of_mem {before : Option Char} {t : Text} {l : Lexeme}
    (h : l ∈ t.lexemesAfter before) : ∃ form : Form, form.Proper ∧ form.lexeme = l := by
  obtain ⟨k, hk⟩ := List.mem_iff_getElem?.1 h
  obtain ⟨before', c, s, hscan⟩ := scan_of_getElem? hk
  obtain ⟨form, hform, hproper, -⟩ := Lexeme.exists_form before' c s
  rw [hscan] at hform
  exact ⟨form, hproper, hform⟩

/-- Every diagnostic of a source is one of a lexeme, by a form of the lexeme. -/
theorem Text.exists_form_of_mem_diagnostics {source : Text} {d : Diagnostic}
    (h : d ∈ source.tokenize.diagnostics) :
    ∃ (form : Form) (offset : Nat), form.Proper ∧ form.lexeme ∈ source.lexemes ∧
      d ∈ form.diagnostics offset := by
  rw [tokenize_eq] at h
  obtain ⟨x, hx, hd⟩ := List.mem_flatMap.1 h
  obtain ⟨l, hl, offset, -, rfl⟩ := Lexeme.exists_of_mem_evaluateAll hx
  obtain ⟨form, hproper, rfl⟩ := exists_form_of_mem hl
  rw [form.evaluate_eq hproper] at hd
  exact ⟨form, offset, hproper, hl, hd⟩

/-- **With each token the sink takes what is wrong with it, once, and nothing else**: the text of
the token is written in some form, and in whatever proper form it is written, the diagnostics are
those of that form, one for each of its defects. -/
theorem Text.defects_reported {σ : Type} [DiagnosticSink σ] (sink : σ) {source : Text} {k : Nat}
    {t : Token} (h : source.tokenize.tokens[k]? = some t) :
    ∃ (l : Lexeme) (front rest : Text) (diagnostics : List Diagnostic),
      source.lexemes[k]? = some l ∧ front ++ (l.text ++ rest) = source ∧
      t.span = Span.ofLength (size front) l.text.size ∧
      ((Lexer.ofText source sink).after k).next.1 = some t ∧
      ((Lexer.ofText source sink).after (k + 1)).sink =
        diagnostics.foldl DiagnosticSink.report ((Lexer.ofText source sink).after k).sink ∧
      (∃ form : Form, form.Describes (l, rest)) ∧
      ∀ form : Form, form.Proper → form.lexeme = l →
        diagnostics = form.diagnostics t.span.start ∧
        diagnostics.map (·.defect) = form.defects := by
  rw [tokens_getElem?, Option.map_eq_some_iff] at h
  obtain ⟨l, hl, ht⟩ := h
  obtain ⟨htoken, hsink⟩ := Lexer.next_after 0 sink hl
  have hsource := append_of_getElem? hl
  obtain ⟨before, c, s, hscan⟩ := scan_of_getElem? hl
  rw [lexemes_eq] at ht
  generalize ((source.lexemesAfter none).take k).flatMap Lexeme.text = front at *
  rw [Nat.zero_add] at htoken hsink
  subst ht
  refine ⟨l, front, _, (l.evaluate (size front)).2, hl, hsource, rfl, htoken, hsink, ?_, ?_⟩
  · rw [← hscan]
    exact Lexeme.exists_form before c s
  · rintro form hproper rfl
    have he : (form.lexeme.evaluate (size front)).2 = form.diagnostics (size front) :=
      form.evaluate_eq hproper (size front)
    rw [he]
    exact ⟨rfl, form.map_defect_diagnostics (size front)⟩

/-- A bad escape stands for itself, and that is two characters. -/
theorem Text.defects_reported_bad_escape :
    ∃ diagnostics : List Diagnostic,
      ((Lexer.ofText ['\x27', '\\', 'q', '\x27'] (#[] : Array Diagnostic)).after 1).sink =
        diagnostics.foldl DiagnosticSink.report #[] ∧
      diagnostics.map (·.defect) = [.unrecognizedEscape ['\\', 'q'], .characterCount 2] := by
  have h : (tokenize ['\x27', '\\', 'q', '\x27']).tokens[0]? =
      some ⟨.char, ⟨0, 4⟩, .char '\\'⟩ := by decide +kernel
  obtain ⟨l, _, _, diagnostics, hl, -, -, -, hsink, -, hform⟩ :=
    defects_reported (#[] : Array Diagnostic) h
  have hlexeme : (lexemes ['\x27', '\\', 'q', '\x27'])[0]? =
      some (Form.quoted .character ['\\', 'q'] true).lexeme := by decide +kernel
  have hproper : (Form.quoted .character ['\\', 'q'] true).Proper :=
    ⟨.pair (by decide) .nil, by decide⟩
  rw [hlexeme, Option.some.injEq] at hl
  obtain ⟨-, hdefects⟩ := hform _ hproper hl
  exact ⟨diagnostics, hsink, hdefects.trans (by decide +kernel)⟩

end LesTokens
