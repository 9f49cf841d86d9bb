/-
How lexemes are written. A lexeme that something can be wrong with has one of a few forms: a
number, a comment, a string in three quotes, a form in quotes on one line, or a character that
starts nothing. `Form` is that form as data, `Form.lexeme` how it is written, and
**`Lexeme.exists_form`**: whatever is scanned is written in a proper form.

A form in quotes is closed or not by its text: its content has no unpaired quote
(`QuotedBody.Content`), so the quote after it is the first one that can close it.
-/
import LesTokens.Proofs.Context

namespace LesTokens

/-! ## Contents -/

namespace QuotedBody

/-- What stands between the quotes of a one-line form: ordinary characters, and backslashes each
with a character that does not end the line. With the closing quote missing, a backslash may also
be the last character. -/
inductive Content (quote : Char) (closed : Bool) : Text → Prop
  | nil : Content quote closed []
  | plain {c : Char} {t : Text} (h : isPlain quote c = true) (ht : Content quote closed t) :
    Content quote closed (c :: t)
  | pair {c : Char} {t : Text} (h : isLineEnd c = false) (ht : Content quote closed t) :
    Content quote closed ('\\' :: c :: t)
  | lone (h : closed = false) : Content quote closed ['\\']

/-- The closing quote, if it is there. -/
def closing (quote : Char) (closed : Bool) : Text := if closed then [quote] else []

theorem exists_content (quote : Char) (t : Text) :
    ∃ content, Content quote (read quote t).closed content ∧
      (read quote t).text = content ++ closing quote (read quote t).closed := by
  fun_induction read quote t with
  | case1 => exact ⟨[], .nil, rfl⟩
  | case2 t => exact ⟨[], .nil, rfl⟩
  | case3 c t hc hl => exact ⟨[], .nil, rfl⟩
  | case4 hc hl => exact ⟨['\\'], .lone rfl, rfl⟩
  | case5 d t hd hc hl => exact ⟨['\\'], .lone rfl, rfl⟩
  | case6 d t hd hc hl ih =>
    obtain ⟨content, h, he⟩ := ih
    refine ⟨'\\' :: d :: content, .pair (by simpa using hd) h, ?_⟩
    simp only [prepend, he, List.cons_append, List.nil_append]
  | case7 c t hc hl hb ih =>
    obtain ⟨content, h, he⟩ := ih
    refine ⟨c :: content, .plain (by simp [isPlain, hc, hl, hb]) h, ?_⟩
    simp only [prepend, he, List.cons_append, List.nil_append]

/-- **The quote after a content is the one that closes it.** -/
theorem read_content {quote : Char} (hb : '\\' ≠ quote) {content : Text}
    (h : Content quote true content) (r : Text) :
    read quote (content ++ quote :: r) = ⟨content ++ [quote], true, r⟩ := by
  induction h with
  | nil => exact read_closing quote r
  | plain hc ht ih =>
    rw [List.cons_append, read_plain hc, ih]
    rfl
  | pair hc ht ih =>
    rw [List.cons_append, List.cons_append, read_backslash hb hc, ih]
    rfl
  | lone h => cases h

theorem opensWith_content {quote : Char} (hb : '\\' ≠ quote) {closed : Bool} {content : Text}
    (h : Content quote closed content) (hne : content ≠ []) (t : Text) :
    opensWith (· = quote) (content ++ t) = false := by
  cases h with
  | nil => exact absurd rfl hne
  | @plain c content hc ht =>
    have hc : c ≠ quote := by
      rintro rfl
      simp [isPlain] at hc
    simpa [opensWith] using hc
  | pair hc ht => simpa [opensWith] using hb
  | lone h => simpa [opensWith] using hb

end QuotedBody

/-- The forms between quotes on one line. -/
inductive QuotedKind where
  | string
  | character
  | backQuoted
  /-- `@` and a name in back quotes. -/
  | ident
  /-- `@@` and a name in back quotes. -/
  | symbol
  /-- `@@` and a name in double quotes. -/
  | stringSymbol
  deriving DecidableEq, Repr

namespace QuotedKind

def quote : QuotedKind → Char
  | string | stringSymbol => '\x22'
  | character => '\x27'
  | backQuoted | ident | symbol => '\x60'

/-- What stands before the opening quote. -/
def sigil : QuotedKind → Text
  | string | character | backQuoted => []
  | ident => ['@']
  | symbol | stringSymbol => ['@', '@']

def tag (kind : QuotedKind) (closed : Bool) : Tag :=
  match kind with
  | string => if closed then .string else .unterminatedString
  | character => if closed then .char else .unterminatedChar
  | backQuoted => if closed then .backQuote else .unterminatedBackQuote
  | ident => if closed then .escapedIdent else .unterminatedEscapedIdent
  | symbol | stringSymbol => if closed then .symbol else .unterminatedSymbol

/-- All up to and with the opening quote. -/
def opener (kind : QuotedKind) : Text := kind.sigil ++ [kind.quote]

theorem utf8Size_quote (kind : QuotedKind) : kind.quote.utf8Size = 1 := by
  cases kind <;> decide

theorem quote_ne_backslash (kind : QuotedKind) : '\\' ≠ kind.quote := by
  cases kind <;> decide

end QuotedKind

/-! ## Forms -/

/-- A number with its sign. -/
def Segments.signed (n : Segments) (negative : Bool) : Text :=
  if negative then '-' :: n.text else n.text

/-- A text after an opener, up to and with the first `closer`, or a text without one. -/
structure Enclosed (closer body : Text) (closed : Bool) : Prop where
  closes : closed = true → closer <:+ body
  first : ∀ u v, body = u ++ closer ++ v → closed = true ∧ v = []

/-- Whether nothing can be wrong with a lexeme of the tag. -/
def Tag.isFaultless : Tag → Bool
  | .ident | .operator | .atSign | .comma | .semicolon | .leftParen | .rightParen | .leftBrace
  | .rightBrace | .leftBracket | .rightBracket | .spaces | .newline | .lineComment | .shebang =>
    true
  | _ => false

/-- The form that a lexeme is written in. -/
inductive Form where
  /-- A lexeme that nothing can be wrong with. -/
  | faultless (tag : Tag) (text : Text)
  | number (segments : Segments) (negative : Bool)
  /-- A character that starts no lexeme. -/
  | unknown (c : Char)
  | comment (body : Text) (closed : Bool)
  | tripleQuoted (quote : Char) (body : Text) (closed : Bool)
  | quoted (kind : QuotedKind) (content : Text) (closed : Bool)
  /-- A character literal that starts with two quotes, and the rest of its line. -/
  | emptyCharacter (line : Text)
  | bareIdent (name : Text)
  | bareSymbol (name : Text)

namespace Form

/-- The lexeme written in a form. -/
def lexeme : Form → Lexeme
  | faultless tag text => ⟨tag, text⟩
  | number n negative => ⟨.number, n.signed negative⟩
  | unknown c => ⟨.unknown, [c]⟩
  | comment body closed =>
    ⟨if closed then .blockComment else .unterminatedBlockComment, '/' :: '*' :: body⟩
  | tripleQuoted quote body closed =>
    ⟨if closed then .tripleQuote else .unterminatedTripleQuote, quote :: quote :: quote :: body⟩
  | quoted kind content closed =>
    ⟨kind.tag closed, kind.opener ++ (content ++ QuotedBody.closing kind.quote closed)⟩
  | emptyCharacter line => ⟨.char, '\x27' :: '\x27' :: line⟩
  | bareIdent name => ⟨.escapedIdent, '@' :: name⟩
  | bareSymbol name => ⟨.symbol, '@' :: '@' :: name⟩

/-- Whether the parts of a form are what they have to be. -/
def Proper : Form → Prop
  | faultless tag _ => tag.isFaultless = true
  | number n _ => opensNumber n.text = true ∧ Segments.scan n.text = (n, [])
  | unknown c => Lexeme.startsLexeme c = false
  | comment body closed => Enclosed ['*', '/'] body closed
  | tripleQuoted quote body closed =>
    quote ∈ ['\x22', '\x27'] ∧ Enclosed [quote, quote, quote] body closed
  | quoted kind content closed => QuotedBody.Content kind.quote closed content ∧
      (kind = .character → closed = true → content ≠ [])
  | emptyCharacter line => ∀ c ∈ line, isLineEnd c = false
  | bareIdent name | bareSymbol name => ∀ c ∈ name, isEscapeRunChar c = true

/-- Whether a form goes on as long as it can before a rest. If it is not closed, that is to the end
of the line, or of the text. -/
def StopsBefore (rest : Text) : Form → Prop
  | number n _ => Segments.scan (n.text ++ rest) = (n, rest)
  | comment _ false | tripleQuoted _ _ false => rest = []
  | quoted _ _ false => rest = [] ∨ opensWith isLineEnd rest = true
  | _ => True

/-- A form describes what is scanned before a rest. -/
structure Describes (form : Form) (x : Lexeme × Text) : Prop where
  lexeme : form.lexeme = x.1
  proper : form.Proper
  stops : form.StopsBefore x.2

end Form

/-! ## One kind after another -/

namespace Lexeme

/-- What is scanned is described by a form. -/
def HasForm (x : Lexeme × Text) : Prop := ∃ form : Form, form.Describes x

theorem HasForm.faultless {x : Lexeme × Text} (h : x.1.tag.isFaultless = true) : HasForm x :=
  ⟨.faultless x.1.tag x.1.text, rfl, h, trivial⟩

theorem enclosed_spec (closer : Text) (hn : closer ≠ []) (closed unclosed : Tag)
    (opener t : Text) : ∃ body isClosed, Enclosed closer body isClosed ∧
      (enclosed closed unclosed opener closer t).1 =
        ⟨if isClosed then closed else unclosed, opener ++ body⟩ ∧
      (isClosed = false → (enclosed closed unclosed opener closer t).2 = []) := by
  unfold enclosed
  cases hs : Text.splitAfter? closer t with
  | some x =>
    obtain ⟨body, rest⟩ := x
    obtain ⟨-, hsuffix, hfirst⟩ := (Text.splitAfter?_eq_some_iff hn).1 hs
    exact ⟨body, true, ⟨fun _ => hsuffix, fun u v e => ⟨rfl, hfirst u v e⟩⟩, rfl, by simp⟩
  | none =>
    refine ⟨t, false, ⟨by simp, fun u v e => ?_⟩, rfl, fun _ => rfl⟩
    exact absurd ⟨u, v, e.symm⟩ ((Text.splitAfter?_eq_none_iff hn).1 hs)

theorem quotedForm_hasForm (kind : QuotedKind) {t : Text}
    (hc : kind = .character → opensWith (· = '\x27') t = false) :
    HasForm (quotedForm (kind.tag true) (kind.tag false) kind.opener kind.quote t) := by
  obtain ⟨content, h, he⟩ := QuotedBody.exists_content kind.quote t
  refine ⟨.quoted kind content (QuotedBody.read kind.quote t).closed, ?_, ⟨h, ?_⟩, ?_⟩
  · simp only [quotedForm, QuotedBody.scan_eq_read, Form.lexeme, he]
    cases (QuotedBody.read kind.quote t).closed <;> rfl
  · -- A character literal that starts with two quotes is not one of these forms.
    rintro rfl hclosed rfl
    have ht := QuotedBody.scan_append QuotedKind.character.quote t
    rw [QuotedBody.scan_eq_read, he, hclosed] at ht
    rw [← ht] at hc
    exact absurd (hc rfl) (by simp [QuotedBody.closing, QuotedKind.quote, opensWith])
  · cases hclosed : (QuotedBody.read kind.quote t).closed with
    | true => trivial
    | false =>
      simp only [quotedForm, QuotedBody.scan_eq_read]
      exact QuotedBody.rest_of_not_closed hclosed

theorem operator_hasForm (c : Char) (t : Text) : HasForm (operator c t) :=
  .faultless (by rw [tag_operator]; rfl)

theorem number_describes {t : Text} (h : opensNumber t = true) (negative : Bool) :
    (Form.number (Segments.scan t).1 negative).Describes
      (⟨.number, (Segments.scan t).1.signed negative⟩, (Segments.scan t).2) := by
  have halone := Segments.scan_replace (n := (Segments.scan t).1) rfl (.nil (Segments.scan t).2)
  have hopen := Segments.opensNumber_text h []
  rw [List.append_nil] at halone hopen
  refine ⟨rfl, ⟨hopen, halone⟩, ?_⟩
  show Segments.scan ((Segments.scan t).1.text ++ (Segments.scan t).2) = _
  rw [Segments.scan_append]

theorem minus_hasForm (before : Option Char) (t : Text) : HasForm (minus before t) := by
  unfold minus
  split
  · rename_i h
    dsimp only
    split
    · exact .faultless rfl
    · exact ⟨_, number_describes (Bool.and_eq_true_iff.1 h).1 true⟩
  · exact operator_hasForm _ _

theorem tripleQuoted_hasForm {quote : Char} (hq : quote ∈ ['\x22', '\x27']) (t : Text) :
    HasForm (enclosed .tripleQuote .unterminatedTripleQuote [quote, quote, quote]
      [quote, quote, quote] t) := by
  obtain ⟨body, closed, h, hl, hr⟩ := enclosed_spec [quote, quote, quote] (by simp)
    .tripleQuote .unterminatedTripleQuote [quote, quote, quote] t
  refine ⟨.tripleQuoted quote body closed, ?_, ⟨hq, h⟩, ?_⟩
  · rw [hl]
    rfl
  · cases closed with
    | true => trivial
    | false => exact hr rfl

theorem slash_hasForm (t : Text) : HasForm (slash t) := by
  unfold slash
  split
  · exact .faultless rfl
  · rename_i t
    obtain ⟨body, closed, h, hl, hr⟩ := enclosed_spec ['*', '/'] (by simp)
      .blockComment .unterminatedBlockComment ['/', '*'] t
    refine ⟨.comment body closed, ?_, h, ?_⟩
    · rw [hl]
      rfl
    · cases closed with
      | true => trivial
      | false => exact hr rfl
  · exact operator_hasForm _ _

theorem doubleQuote_hasForm (t : Text) : HasForm (doubleQuote t) := by
  unfold doubleQuote
  split
  · exact tripleQuoted_hasForm (by simp) _
  · exact quotedForm_hasForm .string (by simp)

theorem singleQuote_hasForm (t : Text) : HasForm (singleQuote t) := by
  unfold singleQuote
  split
  · exact tripleQuoted_hasForm (by simp) _
  · rename_i t _
    refine ⟨.emptyCharacter (restOfLine t), rfl, fun c hc => ?_, trivial⟩
    simpa using List.all_eq_true.1 List.all_takeWhile c hc
  · rename_i h
    refine quotedForm_hasForm .character fun _ => ?_
    cases t with
    | nil => rfl
    | cons c t =>
      have hc : c ≠ '\x27' := by
        rintro rfl
        exact h t rfl
      simpa [opensWith] using hc

theorem isEscapeRunChar_of_mem (t : Text) : ∀ c ∈ (escapeRun t).1, isEscapeRunChar c = true := by
  unfold escapeRun
  split
  · simp
  · rw [escapeRunTail_eq_spanBy]
    exact Text.forall_mem_spanBy (fun c t h => (Bool.and_eq_true_iff.1 h).1) t

theorem doubleAt_hasForm (t : Text) : HasForm (doubleAt t) := by
  unfold doubleAt
  split
  · rename_i c t
    split
    · rename_i hc
      simp only [Bool.or_eq_true, decide_eq_true_eq] at hc
      rcases hc with rfl | rfl
      · exact quotedForm_hasForm .symbol (by simp)
      · exact quotedForm_hasForm .stringSymbol (by simp)
    · dsimp only
      split
      · exact .faultless rfl
      · exact ⟨.bareSymbol _, rfl, isEscapeRunChar_of_mem _, trivial⟩
  · exact .faultless rfl

theorem atSign_hasForm (t : Text) : HasForm (atSign t) := by
  unfold atSign
  split
  · exact doubleAt_hasForm _
  · exact quotedForm_hasForm .ident (by simp)
  · dsimp only
    split
    · exact .faultless rfl
    · exact ⟨.bareIdent _, rfl, isEscapeRunChar_of_mem _, trivial⟩

/-! ## All kinds -/

/-- **Whatever is scanned is written in a proper form.** -/
theorem exists_form (before : Option Char) (c : Char) (t : Text) : HasForm (scan before c t) := by
  cases scanned before c t with
  | newline h hx | spaces h hx | shebang hc hb ht hx | ident h hs hx =>
    rw [← hx]
    exact .faultless rfl
  | number h hx =>
    rw [← hx]
    exact ⟨_, number_describes (t := c :: t) h false⟩
  | minus hc hx =>
    rw [← hx]
    exact minus_hasForm _ _
  | slash hc hx =>
    rw [← hx]
    exact slash_hasForm _
  | doubleQuote hc hx =>
    rw [← hx]
    exact doubleQuote_hasForm _
  | singleQuote hc hx =>
    rw [← hx]
    exact singleQuote_hasForm _
  | backQuote hc hx =>
    rw [← hx]
    exact quotedForm_hasForm .backQuoted (by simp)
  | atSign hc hx =>
    rw [← hx]
    exact atSign_hasForm _
  | punctuation h hx =>
    rw [← hx]
    refine .faultless ?_
    revert h
    fun_cases punctuation? c <;> intro h <;> cases h <;> rfl
  | operator h hm hs hf hx =>
    rw [← hx]
    exact operator_hasForm _ _
  | unknown h hx =>
    rw [← hx]
    exact ⟨.unknown c, rfl, h, trivial⟩

end Lexeme

end LesTokens
