/-
The lexeme at the front of a text. Every character starts some lexeme, so scanning never fails:
what the grammar has no use for becomes a malformed lexeme.

One character of context comes from before the text: a `#!` line stands only at the start of the
source, and a `-` opens a negative number only where an operand may stand.

**`Lexeme.scan_splits`**: a lexeme is not empty, and it and what follows it make up the text.
-/
import LesTokens.Lexeme.Tag
import LesTokens.Lexeme.LineEnding
import LesTokens.Lexeme.QuotedBody
import LesTokens.Lexeme.Segments
import LesTokens.Text.Search

namespace LesTokens

/-- A piece of source text and its tag. -/
structure Lexeme where
  tag : Tag
  text : Text
  deriving DecidableEq, Repr

namespace Lexeme

/-- A lexeme of one character. -/
def single (tag : Tag) (c : Char) (t : Text) : Lexeme × Text := (⟨tag, [c]⟩, t)

/-- A lexeme of one character and all that follow it in a class. -/
def run (tag : Tag) (p : Char → Bool) (c : Char) (t : Text) : Lexeme × Text :=
  (⟨tag, c :: t.takeWhile p⟩, t.dropWhile p)

/-- A lexeme that starts with `opener` and ends with the first `closer` after it, or with the text
if there is none. -/
def enclosed (closed unclosed : Tag) (opener closer t : Text) : Lexeme × Text :=
  match Text.splitAfter? closer t with
  | some (body, rest) => (⟨closed, opener ++ body⟩, rest)
  | none => (⟨unclosed, opener ++ t⟩, [])

/-- A one-line quoted form: `opener` ends with the quote that closes it. -/
def quotedForm (closed unclosed : Tag) (opener : Text) (quote : Char) (t : Text) : Lexeme × Text :=
  let body := QuotedBody.scan quote t
  (⟨if body.closed then closed else unclosed, opener ++ body.text⟩, body.rest)

/-! ## The kinds of lexeme -/

def newline (ending : LineEnding) (t : Text) : Lexeme × Text :=
  let (taken, rest) := ending.run t
  (⟨.newline, taken⟩, rest)

/-- Whether a text starts where an identifier may start. -/
def startsIdent (t : Text) : Bool := opensWith isIdentStart t

/-- A run of operator characters. A lone `\` extends over an identifier after it. -/
def operator (c : Char) (t : Text) : Lexeme × Text :=
  let (taken, rest) := operatorTail t
  if c = '\\' && taken.isEmpty && startsIdent rest then run .operator isIdentContinue c rest
  else (⟨.operator, c :: taken⟩, rest)

/-- Whether an operand may stand after a character, or at the start of the source. -/
def isOperandPosition : Option Char → Bool
  | none => true
  | some c => [' ', '\t', '\n', '\r', '(', '[', '\x7b', ',', ';'].contains c

def number (t : Text) : Lexeme × Text :=
  let (segments, rest) := Segments.scan t
  (⟨.number, segments.text⟩, rest)

/-- Whether a text ends in the suffix of an unsigned type: `u`, `ul` or `lu`, in either case. -/
def hasUnsignedSuffix (t : Text) : Bool :=
  match t.reverse.map Char.toLower with
  | 'u' :: _ => true
  | 'l' :: second :: _ => second = 'u'
  | _ => false

/-- A `-`: the sign of a number in operand position, unless the number is unsigned; else an
operator. -/
def minus (before : Option Char) (t : Text) : Lexeme × Text :=
  if (opensWith Char.isDigit t || opensFraction t) && isOperandPosition before then
    let (segments, rest) := Segments.scan t
    let text := '-' :: segments.text
    if hasUnsignedSuffix text then single .operator '-' t else (⟨.number, text⟩, rest)
  else operator '-' t

/-- A `/`: a comment or an operator. -/
def slash : Text → Lexeme × Text
  | '/' :: t => (⟨.lineComment, '/' :: '/' :: restOfLine t⟩, afterLine t)
  | '*' :: t => enclosed .blockComment .unterminatedBlockComment ['/', '*'] ['*', '/'] t
  | t => operator '/' t

/-- A `"`: a string on one line, or with three quotes on many. -/
def doubleQuote : Text → Lexeme × Text
  | '\x22' :: '\x22' :: t =>
    enclosed .tripleQuote .unterminatedTripleQuote ['\x22', '\x22', '\x22'] ['\x22', '\x22', '\x22'] t
  | t => quotedForm .string .unterminatedString ['\x22'] '\x22' t

/-- A `'`: a character, or with three quotes a string on many lines. An empty character literal
takes the rest of its line. -/
def singleQuote : Text → Lexeme × Text
  | '\x27' :: '\x27' :: t =>
    enclosed .tripleQuote .unterminatedTripleQuote ['\x27', '\x27', '\x27'] ['\x27', '\x27', '\x27'] t
  | '\x27' :: t => (⟨.char, '\x27' :: '\x27' :: restOfLine t⟩, afterLine t)
  | t => quotedForm .char .unterminatedChar ['\x27'] '\x27' t

/-- An `@@`: a symbol, quoted or bare; else the first `@` stands alone. -/
def doubleAt : Text → Lexeme × Text
  | c :: t =>
    if c = '\x60' || c = '\x22' then
      quotedForm .symbol .unterminatedSymbol ['@', '@', c] c t
    else
      let (taken, rest) := escapeRun (c :: t)
      if taken.isEmpty then single .atSign '@' ('@' :: c :: t)
      else (⟨.symbol, '@' :: '@' :: taken⟩, rest)
  | [] => single .atSign '@' ['@']

/-- An `@`: an escaped identifier or a symbol; else it stands alone. -/
def atSign : Text → Lexeme × Text
  | '@' :: t => doubleAt t
  | '\x60' :: t => quotedForm .escapedIdent .unterminatedEscapedIdent ['@', '\x60'] '\x60' t
  | t =>
    let (taken, rest) := escapeRun t
    if taken.isEmpty then single .atSign '@' t else (⟨.escapedIdent, '@' :: taken⟩, rest)

/-- The characters that are lexemes of their own wherever they stand. -/
def punctuation? : Char → Option Tag
  | ',' => some .comma
  | ';' => some .semicolon
  | '(' => some .leftParen
  | ')' => some .rightParen
  | '\x7b' => some .leftBrace
  | '\x7d' => some .rightBrace
  | '[' => some .leftBracket
  | ']' => some .rightBracket
  | _ => none

/-- The lexeme at the front of `c :: t`, and what follows it. `before` is the character before the
text, if it is not the start of the source. -/
def scan (before : Option Char) (c : Char) (t : Text) : Lexeme × Text :=
  match LineEnding.opening? (c :: t) with
  | some ending => newline ending (c :: t)
  | none =>
    if isBlank c then run .spaces isBlank c t
    else if c = '#' && before.isNone && opensWith (· = '!') t then
      (⟨.shebang, c :: restOfLine t⟩, afterLine t)
    else if isIdentStart c then run .ident isIdentContinue c t
    else if c.isDigit || opensFraction (c :: t) then number (c :: t)
    else if c = '-' then minus before t
    else if c = '/' then slash t
    else if c = '\x22' then doubleQuote t
    else if c = '\x27' then singleQuote t
    else if c = '\x60' then
      quotedForm .backQuote .unterminatedBackQuote ['\x60'] '\x60' t
    else if c = '@' then atSign t
    else match punctuation? c with
      | some tag => single tag c t
      | none => if isOperatorChar c then operator c t else single .unknown c t

/-! ## Nothing is lost and nothing stands still -/

/-- A lexeme that is not empty, and with its rest makes up a text. -/
def Splits (s : Lexeme × Text) (t : Text) : Prop := s.1.text ≠ [] ∧ s.1.text ++ s.2 = t

theorem Splits.length_lt {s : Lexeme × Text} {t : Text} (h : Splits s t) :
    s.2.length < t.length := by
  obtain ⟨h1, h2⟩ := h
  have := List.length_pos_iff.2 h1
  rw [← h2, List.length_append]
  omega

theorem Splits.ite {p : Prop} [Decidable p] {s s' : Lexeme × Text} {t : Text}
    (h : p → Splits s t) (h' : ¬p → Splits s' t) : Splits (if p then s else s') t := by
  by_cases hp : p
  · rw [if_pos hp]; exact h hp
  · rw [if_neg hp]; exact h' hp

theorem single_splits (tag : Tag) (c : Char) (t : Text) : Splits (single tag c t) (c :: t) :=
  ⟨by simp [single], rfl⟩

theorem run_splits (tag : Tag) (p : Char → Bool) (c : Char) (t : Text) :
    Splits (run tag p c t) (c :: t) :=
  ⟨by simp [run], by simp [run]⟩

theorem enclosed_splits (closed unclosed : Tag) {opener : Text} (closer t : Text)
    (h : opener ≠ []) : Splits (enclosed closed unclosed opener closer t) (opener ++ t) := by
  unfold enclosed
  split
  · rename_i h'
    exact ⟨by simp [h], by simp [Text.splitAfter?_append h']⟩
  · exact ⟨by simp [h], by simp⟩

theorem quotedForm_splits (closed unclosed : Tag) {opener : Text} (quote : Char) (t : Text)
    (h : opener ≠ []) : Splits (quotedForm closed unclosed opener quote t) (opener ++ t) :=
  ⟨by simp [quotedForm, h], by simp [quotedForm, QuotedBody.scan_append]⟩

theorem newline_splits {ending : LineEnding} {t : Text} (h : LineEnding.opening? t = some ending) :
    Splits (newline ending t) t :=
  ⟨LineEnding.run_ne_nil h, LineEnding.run_append ending t⟩

theorem operator_splits (c : Char) (t : Text) : Splits (operator c t) (c :: t) := by
  have h := operatorTail_append t
  unfold operator
  dsimp only
  split
  · rename_i h'
    simp only [Bool.and_eq_true, List.isEmpty_iff] at h'
    rw [h'.1.2, List.nil_append] at h
    rw [h]
    exact run_splits _ _ _ _
  · exact ⟨by simp, by simp [h]⟩

theorem number_splits {t : Text} (h : opensWith Char.isDigit t || opensFraction t) :
    Splits (number t) t := by
  refine ⟨?_, Segments.scan_append t⟩
  rcases Bool.or_eq_true_iff.1 h with h | h
  · cases t with
    | nil => simp [opensWith] at h
    | cons c t => exact Segments.text_scan_ne_nil_of_digit h
  · exact Segments.text_scan_ne_nil_of_fraction h

theorem minus_splits (before : Option Char) (t : Text) : Splits (minus before t) ('-' :: t) := by
  unfold minus
  split
  · dsimp only
    split
    · exact single_splits _ _ _
    · exact ⟨by simp, by simp [Segments.scan_append]⟩
  · exact operator_splits _ _

theorem slash_splits (t : Text) : Splits (slash t) ('/' :: t) := by
  unfold slash
  split
  · exact ⟨by simp, by simp [restOfLine_append]⟩
  · exact enclosed_splits _ _ _ _ (by simp)
  · exact operator_splits _ _

theorem doubleQuote_splits (t : Text) : Splits (doubleQuote t) ('\x22' :: t) := by
  unfold doubleQuote
  split
  · exact enclosed_splits _ _ _ _ (by simp)
  · exact quotedForm_splits _ _ _ _ (by simp)

theorem singleQuote_splits (t : Text) : Splits (singleQuote t) ('\x27' :: t) := by
  unfold singleQuote
  split
  · exact enclosed_splits _ _ _ _ (by simp)
  · exact ⟨by simp, by simp [restOfLine_append]⟩
  · exact quotedForm_splits _ _ _ _ (by simp)

theorem doubleAt_splits (t : Text) : Splits (doubleAt t) ('@' :: '@' :: t) := by
  unfold doubleAt
  split
  · split
    · exact quotedForm_splits _ _ _ _ (by simp)
    · have h := escapeRun_append
      dsimp only
      split
      · exact single_splits _ _ _
      · exact ⟨by simp, by simp [h]⟩
  · exact single_splits _ _ _

theorem atSign_splits (t : Text) : Splits (atSign t) ('@' :: t) := by
  unfold atSign
  split
  · exact doubleAt_splits _
  · exact quotedForm_splits _ _ _ _ (by simp)
  · have h := escapeRun_append
    dsimp only
    split
    · exact single_splits _ _ _
    · exact ⟨by simp, by simp [h]⟩

/-- **A lexeme is not empty, and it and what follows it make up the text.** -/
theorem scan_splits (before : Option Char) (c : Char) (t : Text) :
    Splits (scan before c t) (c :: t) := by
  unfold scan
  split
  · rename_i h
    exact newline_splits h
  · refine .ite (fun _ => run_splits ..) fun _ => ?_
    refine .ite (fun _ => ⟨by simp, by simp [restOfLine_append]⟩) fun _ => ?_
    refine .ite (fun _ => run_splits ..) fun _ => ?_
    refine .ite (fun h => number_splits h) fun _ => ?_
    refine .ite (fun h => h ▸ minus_splits ..) fun _ => ?_
    refine .ite (fun h => h ▸ slash_splits _) fun _ => ?_
    refine .ite (fun h => h ▸ doubleQuote_splits _) fun _ => ?_
    refine .ite (fun h => h ▸ singleQuote_splits _) fun _ => ?_
    refine .ite (fun h => h ▸ quotedForm_splits _ _ _ _ (by simp)) fun _ => ?_
    refine .ite (fun h => h ▸ atSign_splits _) fun _ => ?_
    split
    · exact single_splits ..
    · exact .ite (fun _ => operator_splits ..) fun _ => single_splits ..

end Lexeme

end LesTokens
