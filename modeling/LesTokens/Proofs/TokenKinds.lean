/-
The kind and the value of a token, whatever its lexeme is. The tag of a lexeme decides on the kind,
but for operators, whose text does; and the value is one that a token of the kind may carry,
whether or not something is wrong with the lexeme (**`Evaluation.accepts`**).
-/
import LesTokens.Evaluation

namespace LesTokens

/-! ## Numbers -/

/-- What is a value of a number, if it is a value at all. -/
def GivesNumber (x : Except NumberError Value) : Prop := ∀ v, x = .ok v → v.isNumeric = true

namespace GivesNumber

theorem ok {v : Value} (h : v.isNumeric = true) : GivesNumber (.ok v) := by
  rintro v' ⟨⟩
  exact h

theorem error (e : NumberError) : GivesNumber (.error e) := by
  rintro v ⟨⟩

theorem bind {α : Type} (x : Except NumberError α) {f : α → Except NumberError Value}
    (hf : ∀ a, GivesNumber (f a)) : GivesNumber (x >>= f) := by
  cases x with
  | ok a => exact hf a
  | error e => exact error e

theorem ite {p : Prop} [Decidable p] {x y : Except NumberError Value} (hx : GivesNumber x)
    (hy : GivesNumber y) : GivesNumber (if p then x else y) := by
  split
  · exact hx
  · exact hy

end GivesNumber

namespace Literal

theorem integerValue_gives (l : Literal) : GivesNumber l.integerValue := by
  refine .ite (.error _) (.ite (.error _) ?_)
  dsimp only
  split
  · exact .ok rfl
  · exact .error _

theorem floatValue_gives (l : Literal) : GivesNumber l.floatValue :=
  .bind _ fun _ => .ite (.ite (.error _) (.ok rfl)) (.ite (.ok rfl) (.error _))

theorem decimalValue_gives (l : Literal) : GivesNumber l.decimalValue := by
  refine .bind _ fun d => ?_
  cases d with
  | some d => exact .ok rfl
  | none => exact .error _

theorem value_gives (l : Literal) : GivesNumber l.value := by
  refine .ite ?_ l.integerValue_gives
  unfold fractionalValue
  split
  · exact l.decimalValue_gives
  · exact .error _
  · exact .error _
  · exact .error _
  · exact l.floatValue_gives

end Literal

/-- **A text that is read as a number has the value of one.** -/
theorem readNumber_gives (t : Text) : GivesNumber (readNumber t) :=
  .bind _ fun l => l.value_gives

/-! ## Lexemes -/

/-- Whether tokens of the kind are named as operators are. -/
def Kind.namesOperator : Kind → Bool
  | operator | suffixOperator | assignment | colon | comma | dot | semicolon | atSign => true
  | _ => false

/-- Whether lexemes of the tag are named as operators are, and nothing is wrong with them. -/
def Tag.namesOperator : Tag → Bool
  | operator | comma | semicolon | atSign => true
  | _ => false

/-- The kind of what lexemes of a tag evaluate to, if it does not depend on their text. -/
def Tag.kind? : Tag → Option Kind
  | ident | escapedIdent | unterminatedEscapedIdent => some .ident
  | symbol | unterminatedSymbol => some .symbol
  | number => some .number
  | string | unterminatedString | tripleQuote | unterminatedTripleQuote => some .string
  | char | unterminatedChar => some .char
  | backQuote | unterminatedBackQuote => some .backQuoted
  | operator => none
  | unknown => some .operator
  | atSign => some .atSign
  | comma => some .comma
  | semicolon => some .semicolon
  | leftParen => some .leftParen
  | rightParen => some .rightParen
  | leftBrace => some .leftBrace
  | rightBrace => some .rightBrace
  | leftBracket => some .leftBracket
  | rightBracket => some .rightBracket
  | spaces | endOfInput => some .spaces
  | newline => some .newline
  | lineComment => some .lineComment
  | blockComment | unterminatedBlockComment => some .blockComment
  | shebang => some .shebang

theorem Kind.accepts_name {kind : Kind} (h : kind.namesOperator = true) (name : Text) :
    kind.accepts (.name name) = true := by
  cases kind with
  | operator | suffixOperator | assignment | colon | comma | dot | semicolon | atSign => rfl
  | _ => cases h

theorem classifyOperator_spec (t : Text) : ∃ kind name,
    classifyOperator t = (kind, .name name) ∧ kind.namesOperator = true := by
  have hassign : (if isAssignment t then Kind.assignment else .operator).namesOperator = true := by
    split <;> rfl
  unfold classifyOperator
  split
  · exact ⟨_, _, rfl, rfl⟩
  · exact ⟨_, _, rfl, rfl⟩
  · split
    · exact ⟨_, _, rfl, rfl⟩
    · split
      · exact ⟨_, _, rfl, rfl⟩
      · exact ⟨_, _, rfl, hassign⟩
  · exact ⟨_, _, rfl, hassign⟩

namespace Evaluation

theorem escaped_eq (kind : Kind) (t : Text) (width : Nat) (span : Span) (closed : Bool) :
    ∃ name ds, escaped kind t width span closed = ⟨kind, .name name, ds⟩ := by
  unfold escaped
  dsimp only
  split
  · split
    · exact ⟨_, _, rfl⟩
    · exact ⟨_, _, rfl⟩
  · exact ⟨_, _, rfl⟩

theorem character_char (t : Text) (span : Span) (closed : Bool) :
    ∃ c ds, character t span closed = ⟨.char, .char c, ds⟩ := by
  unfold character
  split
  · exact ⟨_, _, rfl⟩
  · exact ⟨_, _, rfl⟩

theorem number_numeric (t : Text) (span : Span) :
    ∃ v ds, number t span = ⟨.number, v, ds⟩ ∧ v.isNumeric = true := by
  unfold number
  cases h : readNumber t with
  | ok v => exact ⟨v, _, rfl, readNumber_gives t v h⟩
  | error e => exact ⟨_, _, rfl, rfl⟩

/-- **The value of a token is one that a token of its kind may carry.** -/
theorem accepts (tag : Tag) (t : Text) (span : Span) :
    (ofLexeme tag t span).kind.accepts (ofLexeme tag t span).value = true := by
  cases tag with
  | escapedIdent | unterminatedEscapedIdent | symbol | unterminatedSymbol =>
    obtain ⟨name, ds, h⟩ := escaped_eq _ t _ span _
    show Kind.accepts (escaped _ _ _ _ _).kind (escaped _ _ _ _ _).value = true
    rw [h]
    rfl
  | number =>
    obtain ⟨v, ds, h, hv⟩ := number_numeric t span
    show Kind.accepts (number t span).kind (number t span).value = true
    rw [h]
    exact hv
  | char | unterminatedChar =>
    obtain ⟨c, ds, h⟩ := character_char t span _
    show Kind.accepts (character _ _ _).kind (character _ _ _).value = true
    rw [h]
    rfl
  | operator =>
    obtain ⟨kind, name, h, hk⟩ := classifyOperator_spec t
    show Kind.accepts (classifyOperator t).1 (classifyOperator t).2 = true
    rw [h]
    exact Kind.accepts_name hk name
  | _ => rfl

theorem kind_escaped (kind : Kind) (t : Text) (width : Nat) (span : Span) (closed : Bool) :
    (escaped kind t width span closed).kind = kind := by
  obtain ⟨name, ds, h⟩ := escaped_eq kind t width span closed
  rw [h]

theorem kind_character (t : Text) (span : Span) (closed : Bool) :
    (character t span closed).kind = .char := by
  obtain ⟨c, ds, h⟩ := character_char t span closed
  rw [h]

theorem kind_number (t : Text) (span : Span) : (number t span).kind = .number := by
  obtain ⟨v, ds, h, -⟩ := number_numeric t span
  rw [h]

/-- **A tag tells the kind**, and only operators have kinds of their own. -/
theorem kind_ofLexeme (tag : Tag) (t : Text) (span : Span) :
    tag.kind? = some (ofLexeme tag t span).kind ∨
      tag = .operator ∧ (ofLexeme tag t span).kind.namesOperator = true := by
  cases tag with
  | operator =>
    obtain ⟨kind, name, h, hk⟩ := classifyOperator_spec t
    refine .inr ⟨rfl, ?_⟩
    show (classifyOperator t).1.namesOperator = true
    rw [h]
    exact hk
  | escapedIdent | unterminatedEscapedIdent | symbol | unterminatedSymbol =>
    exact .inl (congrArg some (kind_escaped ..).symm)
  | char | unterminatedChar => exact .inl (congrArg some (kind_character ..).symm)
  | number => exact .inl (congrArg some (kind_number ..).symm)
  | _ => exact .inl rfl

theorem kind?_of_kind {tag : Tag} {t : Text} {span : Span} {kind : Kind}
    (h : (ofLexeme tag t span).kind = kind) (hk : kind.namesOperator = false) :
    tag.kind? = some kind := by
  rcases kind_ofLexeme tag t span with htag | ⟨-, hname⟩
  · rw [htag, h]
  · rw [h, hk] at hname
    cases hname

theorem tag_eq_number_of_kind {tag : Tag} {t : Text} {span : Span}
    (h : (ofLexeme tag t span).kind = .number) : tag = .number := by
  have hkind := kind?_of_kind h rfl
  cases tag with
  | number => rfl
  | _ => cases hkind

theorem tag_of_kind_blockComment {tag : Tag} {t : Text} {span : Span}
    (h : (ofLexeme tag t span).kind = .blockComment) :
    tag = .blockComment ∨ tag = .unterminatedBlockComment := by
  have hkind := kind?_of_kind h rfl
  cases tag with
  | blockComment => exact .inl rfl
  | unterminatedBlockComment => exact .inr rfl
  | _ => cases hkind

/-- Named as operators are, with nothing wrong, are only lexemes with the tag of one. -/
theorem namesOperator_of_ofLexeme {tag : Tag} {t : Text} {span : Span}
    (hk : (ofLexeme tag t span).kind.namesOperator = true)
    (hds : (ofLexeme tag t span).diagnostics = []) : tag.namesOperator = true := by
  rcases kind_ofLexeme tag t span with htag | ⟨rfl, -⟩
  · generalize (ofLexeme tag t span).kind = kind at hk htag
    cases tag with
    | comma | semicolon | atSign => rfl
    | unknown => cases hds
    | _ => cases htag <;> cases hk
  · rfl

end Evaluation

end LesTokens
