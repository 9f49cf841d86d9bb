/-
A text written between quotes, and read back. `Text.encode` writes a backslash, the quote and the
characters that end a line as escapes, and all else as it is. The scanner looks for the closing
quote in what is written and the evaluation takes the same text apart into units, each by its own
rules; both agree with the encoding one character of the text at a time (`escapeChar_cases`).

**`Text.first_token_write`**: in each of the quoted forms the first token ends with the closing
quote, carries the text, and nothing is wrong with it, whatever follows.
-/
import LesTokens.Proofs.Defects

namespace LesTokens

/-! ## Encoding -/

/-- How a character is written between two quotes. -/
def escapeChar (quote c : Char) : Text :=
  if c = '\\' ∨ c = quote then ['\\', c]
  else if c = '\n' then ['\\', 'n']
  else if c = '\r' then ['\\', 'r']
  else [c]

/-- How a text is written between two quotes. -/
def Text.encode (quote : Char) (s : Text) : Text := s.flatMap (escapeChar quote)

/-- The quotes of the one-line forms. -/
def isQuote (c : Char) : Bool := ['\x22', '\x27', '\x60'].contains c

theorem simpleEscape?_of_isQuote {quote : Char} (h : isQuote quote = true) :
    simpleEscape? quote = some quote := by
  have hq : quote = '\x22' ∨ quote = '\x27' ∨ quote = '\x60' := by simpa [isQuote] using h
  rcases hq with rfl | rfl | rfl <;> rfl

/-- A character is written as an escape that stands for it, or as itself if it is ordinary. -/
theorem escapeChar_cases {quote : Char} (hq : isQuote quote = true) (c : Char) :
    (∃ letter, escapeChar quote c = ['\\', letter] ∧ isLineEnd letter = false ∧
      simpleEscape? letter = some c) ∨
    (escapeChar quote c = [c] ∧ QuotedBody.isPlain quote c = true ∧ c ≠ '\\') := by
  by_cases hc : c = '\\' ∨ c = quote
  · left
    refine ⟨c, if_pos hc, ?_⟩
    rcases hc with rfl | rfl
    · exact ⟨by decide, rfl⟩
    · exact ⟨(excludes_of_class hq (by decide)).1, simpleEscape?_of_isQuote hq⟩
  · have hself : escapeChar quote c =
        if c = '\n' then ['\\', 'n'] else if c = '\r' then ['\\', 'r'] else [c] := if_neg hc
    rw [hself]
    by_cases hn : c = '\n'
    · exact .inl ⟨'n', if_pos hn, by decide, by rw [hn]; rfl⟩
    · rw [if_neg hn]
      by_cases hr : c = '\r'
      · exact .inl ⟨'r', if_pos hr, by decide, by rw [hr]; rfl⟩
      · rw [not_or] at hc
        simp [QuotedBody.isPlain, isLineEnd, hc, hn, hr]

namespace Text

@[simp] theorem encode_nil (quote : Char) : encode quote [] = [] := rfl

@[simp] theorem encode_cons (quote c : Char) (s : Text) :
    encode quote (c :: s) = escapeChar quote c ++ encode quote s := List.flatMap_cons

theorem encode_eq_nil {quote : Char} (hq : isQuote quote = true) {s : Text}
    (h : encode quote s = []) : s = [] := by
  cases s with
  | nil => rfl
  | cons c s =>
    rw [encode_cons] at h
    rcases escapeChar_cases hq c with ⟨letter, he, -⟩ | ⟨he, -⟩ <;> simp [he] at h

end Text

/-! ## Scanning what is written -/

namespace QuotedBody

variable {quote : Char}

theorem content_encode (hq : isQuote quote = true) (closed : Bool) (s : Text) :
    Content quote closed (Text.encode quote s) := by
  induction s with
  | nil => exact .nil
  | cons c s ih =>
    rw [Text.encode_cons]
    rcases escapeChar_cases hq c with ⟨letter, he, hl, -⟩ | ⟨he, hp, -⟩
    · rw [he]
      exact .pair hl ih
    · rw [he]
      exact .plain hp ih

end QuotedBody

/-! ## Decoding what is written -/

namespace EscapeUnit

variable {quote : Char}

theorem units_escapeChar (hq : isQuote quote = true) (c : Char) (t : Text) :
    units (escapeChar quote c ++ t) = ⟨escapeChar quote c, some c⟩ :: units t := by
  rcases escapeChar_cases hq c with ⟨letter, he, -, hletter⟩ | ⟨he, -, hne⟩
  · have hfirst : first '\\' (letter :: t) = ⟨['\\', letter], some c⟩ := by simp [first, hletter]
    rw [he, List.cons_append, List.cons_append, List.nil_append, units_cons, hfirst]
    rfl
  · rw [he, List.cons_append, List.nil_append, units_cons, first_of_ne hne]
    rfl

theorem units_encode (hq : isQuote quote = true) (s : Text) :
    units (Text.encode quote s) = s.map fun c => ⟨escapeChar quote c, some c⟩ := by
  induction s with
  | nil =>
    rw [Text.encode_nil, units]
    rfl
  | cons c s ih => rw [Text.encode_cons, units_escapeChar hq, ih, List.map_cons]

/-- **What is written of a text stands for the text.** -/
theorem decodedText_encode (hq : isQuote quote = true) (s : Text) :
    decodedText (Text.encode quote s) = s := by
  rw [decodedText, units_encode hq, List.flatMap_map]
  exact List.flatMap_singleton' s

end EscapeUnit

/-! ## The quoted forms -/

namespace QuotedKind

/-- A text written in a form. -/
def write (kind : QuotedKind) (s : Text) : Text :=
  kind.opener ++ (s.encode kind.quote ++ [kind.quote])

theorem isQuote_quote (kind : QuotedKind) : isQuote kind.quote = true := by
  cases kind <;> rfl

/-- Whether a form starts like another one before a text: two double quotes and a third are a string
on many lines, two single quotes a literal of no character. -/
def opensAnother (kind : QuotedKind) (t : Text) : Bool :=
  match kind with
  | string => opensPair (· = '\x22') (· = '\x22') t
  | character => opensWith (· = '\x27') t
  | _ => false

end QuotedKind

/-- Whether a form has room for a text. -/
def QuotedKind.HasRoom (kind : QuotedKind) (s : Text) : Prop :=
  kind = .character → ∃ c, s = [c]

theorem QuotedKind.HasRoom.proper {kind : QuotedKind} {s : Text} (h : kind.HasRoom s) :
    (Form.quoted kind (s.encode kind.quote) true).Proper := by
  refine ⟨QuotedBody.content_encode kind.isQuote_quote true s, fun hk _ hnil => ?_⟩
  obtain ⟨c, rfl⟩ := h hk
  exact absurd (Text.encode_eq_nil kind.isQuote_quote hnil) (List.cons_ne_nil c [])

namespace Form

/-- A text written in a form that has room for it stands for the text, and nothing is wrong. -/
theorem evaluate_write {kind : QuotedKind} {s : Text} (h : kind.HasRoom s) (offset : Nat) :
    (quoted kind (s.encode kind.quote) true).lexeme.evaluate offset =
      (⟨kind.tokenKind, .ofLength offset (kind.write s).size, kind.value s⟩, []) := by
  have hq := kind.isQuote_quote
  have hproper := h.proper
  have hcount : kind.countDefects (s.encode kind.quote) true = [] := by
    refine if_neg fun hk => ?_
    obtain ⟨c, rfl⟩ := h hk.1
    rw [EscapeUnit.decodedText_encode hq] at hk
    exact hk.2.2 rfl
  have hvalid : ∀ u ∈ EscapeUnit.units (s.encode kind.quote), u.char ≠ none := by
    intro u hu
    rw [EscapeUnit.units_encode hq, List.mem_map] at hu
    obtain ⟨c, -, rfl⟩ := hu
    simp
  have he := Evaluation.ofLexeme_quoted hproper (.ofLength offset (kind.write s).size)
  rw [EscapeUnit.decodedText_encode hq, escapeDiagnostics_of_valid hvalid, hcount] at he
  exact Prod.ext (congrArg (Evaluation.token · _) he) (congrArg Evaluation.diagnostics he)

end Form

/-! ## The first token -/

namespace Lexeme

theorem scan_opener (kind : QuotedKind) (before : Option Char) {c : Char} {t u : Text}
    (ht : kind.opener ++ t = c :: u) (h : kind.opensAnother t = false) :
    scan before c u =
      quotedForm (kind.tag true) (kind.tag false) kind.opener kind.quote t := by
  apply Scanned.eq
  cases kind with
  | string =>
    obtain ⟨rfl, rfl⟩ := List.cons.inj ht
    exact .doubleQuote rfl (doubleQuote_eq h)
  | character =>
    obtain ⟨rfl, rfl⟩ := List.cons.inj ht
    exact .singleQuote rfl (singleQuote_eq h)
  | backQuoted =>
    obtain ⟨rfl, rfl⟩ := List.cons.inj ht
    exact .backQuote rfl rfl
  | ident | symbol | stringSymbol =>
    obtain ⟨rfl, rfl⟩ := List.cons.inj ht
    exact .atSign rfl rfl

/-- **A closed form is the first lexeme**, whatever follows it. -/
theorem scan_quoted {kind : QuotedKind} {content r u : Text} {c : Char}
    (h : (Form.quoted kind content true).Proper)
    (hr : kind = .string → content = [] → opensWith (· = '\x22') r = false)
    (before : Option Char) (hu : (Form.quoted kind content true).lexeme.text ++ r = c :: u) :
    scan before c u = ((Form.quoted kind content true).lexeme, r) := by
  obtain ⟨hcontent, hne⟩ := h
  have hb := kind.quote_ne_backslash
  have hopen : kind.opener ++ (content ++ kind.quote :: r) = c :: u := by
    rw [← hu]
    simp [Form.lexeme, QuotedBody.closing]
  have hfront : kind.opensAnother (content ++ kind.quote :: r) = false := by
    cases kind with
    | string =>
      by_cases hnil : content = []
      · subst hnil
        simpa [QuotedKind.opensAnother, opensPair, QuotedKind.quote] using hr rfl rfl
      · exact opensPair_of_not_opensWith (QuotedBody.opensWith_content hb hcontent hnil _)
    | character => exact QuotedBody.opensWith_content hb hcontent (hne rfl rfl) _
    | backQuoted | ident | symbol | stringSymbol => rfl
  rw [scan_opener kind before hopen hfront, quotedForm, QuotedBody.scan_eq_read,
    QuotedBody.read_content hb hcontent]
  rfl

/-- **The first lexeme is the form that is written.** -/
theorem scan_write {kind : QuotedKind} {s r u : Text} {c : Char} (h : kind.HasRoom s)
    (hr : kind = .string → s = [] → opensWith (· = '\x22') r = false) (before : Option Char)
    (hu : kind.write s ++ r = c :: u) :
    scan before c u = ((Form.quoted kind (s.encode kind.quote) true).lexeme, r) := by
  have hempty (hk : kind = .string) (hnil : s.encode kind.quote = []) :
      opensWith (· = '\x22') r = false := hr hk (Text.encode_eq_nil kind.isQuote_quote hnil)
  exact scan_quoted h.proper hempty before hu

end Lexeme

/-- **What is written in quotes is read back**: whatever follows, the first token ends with the
closing quote and carries the text, and the sink takes nothing. -/
theorem Text.first_token_write {σ : Type} [DiagnosticSink σ] (sink : σ) {kind : QuotedKind}
    {s r : Text} (h : kind.HasRoom s)
    (hr : kind = .string → s = [] → opensWith (· = '\x22') r = false) :
    (Lexer.ofText (kind.write s ++ r) sink).next =
        (some ⟨kind.tokenKind, ⟨0, size (kind.write s)⟩, kind.value s⟩,
          ⟨.between (kind.write s) r, false, sink⟩) ∧
      (kind.write s ++ r).tokenize.tokens.head? =
        some ⟨kind.tokenKind, ⟨0, size (kind.write s)⟩, kind.value s⟩ := by
  obtain ⟨c, u, hu⟩ : ∃ c u, kind.write s ++ r = c :: u := by
    cases kind <;> exact ⟨_, _, rfl⟩
  have hscan := Lexeme.scan_write h hr none hu
  have he := Form.evaluate_write h 0
  rw [Span.ofLength, Nat.zero_add] at he
  constructor
  · have hnext := Lexer.next_of_some (l := Lexer.ofText (c :: u) sink) rfl
      (Scanner.next?_cons hscan 0)
    rw [Nat.zero_add] at hnext
    rw [hu, hnext]
    show (some (Lexeme.evaluate _ 0).1,
      (⟨_, false, (Lexeme.evaluate _ 0).2.foldl _ _⟩ : Lexer σ)) = _
    rw [he]
    rfl
  · rw [tokenize_eq, lexemes_eq, hu, lexemesAfter_cons hscan]
    exact congrArg some (congrArg Prod.fst he)

/-- The quote itself before another one, and a string of nothing before a quote of another kind. -/
theorem Text.first_token_write_quotes :
    (tokenize ['\x27', '\\', '\x27', '\x27', '\x27']).tokens.head? =
        some ⟨.char, ⟨0, 4⟩, .char '\x27'⟩ ∧
      (tokenize ['\x22', '\x22', '\x27']).tokens.head? = some ⟨.string, ⟨0, 2⟩, .string []⟩ := by
  have hquote : QuotedKind.character.HasRoom ['\x27'] := fun _ => ⟨_, rfl⟩
  have hempty : QuotedKind.string.HasRoom [] := by simp [QuotedKind.HasRoom]
  have hrest : QuotedKind.string = .string → ([] : Text) = [] →
      opensWith (· = '\x22') ['\x27'] = false := fun _ _ => by decide
  constructor
  · exact (first_token_write (#[] : Array Diagnostic) (r := ['\x27']) hquote (by simp)).2
  · exact (first_token_write (#[] : Array Diagnostic) hempty hrest).2

end LesTokens
