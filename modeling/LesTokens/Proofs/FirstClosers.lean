/-
Forms that go over line endings: strings between three quotes, and block comments. Such a form
(`Enclosure`) is closed where its closer first occurs behind the opener, whatever stands before it:
an opener, a backslash or the quotes of other strings. If the closer does not occur, the form goes
on to the end of the source.

**`Text.closes_first`**: so it is with every token that stands at an opener, and a content that its
closer closes no earlier than behind it is read back from any source that starts with the form.
-/
import LesTokens.Proofs.BestEffort

namespace LesTokens

/-- The forms that go over line endings. -/
inductive Enclosure where
  | doubleQuotes
  | singleQuotes
  | comment
  deriving DecidableEq, Repr

namespace Enclosure

def opener : Enclosure → Text
  | doubleQuotes => ['\x22', '\x22', '\x22']
  | singleQuotes => ['\x27', '\x27', '\x27']
  | comment => ['/', '*']

def closer : Enclosure → Text
  | doubleQuotes => ['\x22', '\x22', '\x22']
  | singleQuotes => ['\x27', '\x27', '\x27']
  | comment => ['*', '/']

def tag (e : Enclosure) (closed : Bool) : Tag :=
  match e with
  | doubleQuotes | singleQuotes => if closed then .tripleQuote else .unterminatedTripleQuote
  | comment => if closed then .blockComment else .unterminatedBlockComment

/-- The kind of the token. -/
def kind : Enclosure → Kind
  | doubleQuotes | singleQuotes => .string
  | comment => .blockComment

/-- The value of the token: a string is its content as it is written. -/
def value (e : Enclosure) (content : Text) : Value :=
  match e with
  | doubleQuotes | singleQuotes => .string content
  | comment => .absent

/-- What is wrong without a closer. -/
def defect (e : Enclosure) : Defect :=
  match e with
  | doubleQuotes | singleQuotes => .unterminatedString e.closer
  | comment => .unterminatedComment

/-- A content that the closer closes, and no earlier: in the two together the closer occurs only at
the end. -/
def ClosesFirst (e : Enclosure) (content : Text) : Prop :=
  ∀ u w, content ++ e.closer = u ++ (e.closer ++ w) → w = []

theorem closer_ne_nil (e : Enclosure) : e.closer ≠ [] := by
  cases e <;> exact List.cons_ne_nil _ _

theorem closesFirst_iff {e : Enclosure} {content : Text} : e.ClosesFirst content ↔
    Text.splitAfter? e.closer (content ++ e.closer) = some (content ++ e.closer, []) := by
  rw [Text.splitAfter?_eq_some_iff e.closer_ne_nil]
  simp only [List.append_nil, List.append_assoc, List.suffix_append, true_and, ClosesFirst]

instance (e : Enclosure) (content : Text) : Decidable (e.ClosesFirst content) :=
  decidable_of_iff _ closesFirst_iff.symm

/-! ## Lexemes -/

/-- The lexeme with a content, closed or not. -/
def lexeme (e : Enclosure) (content : Text) (closed : Bool) : Lexeme :=
  ⟨e.tag closed, e.opener ++ (content ++ if closed then e.closer else [])⟩

theorem scan_opener (e : Enclosure) (before : Option Char) {c : Char} {t u : Text}
    (h : e.opener ++ t = c :: u) : Lexeme.scan before c u =
      Lexeme.enclosed (e.tag true) (e.tag false) e.opener e.closer t := by
  cases e with
  | doubleQuotes =>
    obtain ⟨rfl, rfl⟩ : '\x22' = c ∧ '\x22' :: '\x22' :: t = u := List.cons.inj h
    exact Lexeme.Scanned.eq (.doubleQuote rfl rfl)
  | singleQuotes =>
    obtain ⟨rfl, rfl⟩ : '\x27' = c ∧ '\x27' :: '\x27' :: t = u := List.cons.inj h
    exact Lexeme.Scanned.eq (.singleQuote rfl rfl)
  | comment =>
    obtain ⟨rfl, rfl⟩ : '/' = c ∧ '*' :: t = u := List.cons.inj h
    exact Lexeme.Scanned.eq (.slash rfl rfl)

theorem exists_closesFirst {e : Enclosure} {t : Text} (h : e.closer <:+: t) :
    ∃ content rest, content ++ (e.closer ++ rest) = t ∧ e.ClosesFirst content := by
  cases hsplit : Text.splitAfter? e.closer t with
  | none => exact absurd h ((Text.splitAfter?_eq_none_iff e.closer_ne_nil).1 hsplit)
  | some parts =>
    obtain ⟨happend, ⟨content, hcontent⟩, hfirst⟩ :=
      (Text.splitAfter?_eq_some_iff e.closer_ne_nil).1 hsplit
    refine ⟨content, parts.2, ?_, fun u w hu => hfirst u w ?_⟩
    · rw [← List.append_assoc, hcontent, happend]
    · rw [← hcontent, hu, List.append_assoc]

/-- **A form is closed where its closer first occurs.** -/
theorem enclosed_closed {e : Enclosure} {content : Text} (h : e.ClosesFirst content) (rest : Text) :
    Lexeme.enclosed (e.tag true) (e.tag false) e.opener e.closer (content ++ (e.closer ++ rest)) =
      (e.lexeme content true, rest) := by
  have hsplit := Text.splitAfter?_replace e.closer_ne_nil (closesFirst_iff.1 h) rest
  rw [List.append_assoc] at hsplit
  rw [Lexeme.enclosed, hsplit]
  rfl

theorem enclosed_open {e : Enclosure} {t : Text} (h : ¬e.closer <:+: t) :
    Lexeme.enclosed (e.tag true) (e.tag false) e.opener e.closer t = (e.lexeme t false, []) := by
  rw [Lexeme.enclosed, (Text.splitAfter?_eq_none_iff e.closer_ne_nil).2 h, lexeme]
  simp

/-! ## Tokens -/

/-- The token with a content that stands at an offset. -/
def token (e : Enclosure) (content : Text) (closed : Bool) (offset : Nat) : Token :=
  ⟨e.kind, .ofLength offset (e.lexeme content closed).text.size, e.value content⟩

theorem evaluate_lexeme (e : Enclosure) (content : Text) (closed : Bool) (offset : Nat) :
    (e.lexeme content closed).evaluate offset = (e.token content closed offset,
      if closed then [] else [⟨(e.token content closed offset).span, e.defect⟩]) := by
  have hvalue (quote : Char) (hq : quote.utf8Size = 1) (span : Span) :=
    congrArg (Token.mk .string span) (Evaluation.tripleQuoted_value hq content span closed)
  cases e with
  | doubleQuotes => cases closed <;> exact Prod.ext (hvalue '\x22' rfl _) rfl
  | singleQuotes => cases closed <;> exact Prod.ext (hvalue '\x27' rfl _) rfl
  | comment => cases closed <;> rfl

end Enclosure

namespace Text

/-! ## Sources -/

theorem enclosed_of_getElem? {e : Enclosure} {source front behind : Text} {k : Nat} {l : Lexeme}
    (hl : source.lexemes[k]? = some l) (hsource : front ++ (e.opener ++ behind) = source)
    (hfront : size ((source.lexemes.take k).flatMap Lexeme.text) = front.size) :
    Lexeme.enclosed (e.tag true) (e.tag false) e.opener e.closer behind =
      (l, (source.lexemes.drop (k + 1)).flatMap Lexeme.text) := by
  obtain ⟨c, s, hscan⟩ := scan_behind_of_getElem? hl
  have htext := append_of_getElem? hl
  rw [← lexemes_eq] at hscan htext
  -- The source is split at one offset in both ways.
  have hsplit := splitAt?_size_append front (e.opener ++ behind)
  have hsplit' := splitAt?_size_append ((source.lexemes.take k).flatMap Lexeme.text)
    (l.text ++ (source.lexemes.drop (k + 1)).flatMap Lexeme.text)
  rw [hsource] at hsplit
  rw [htext, hfront, hsplit] at hsplit'
  obtain ⟨-, hparts⟩ := Prod.mk.inj (Option.some.inj hsplit')
  have hopener : e.opener ++ behind = c :: s := hparts.trans (Lexeme.Splits.of_scan hscan).2
  rw [← e.scan_opener _ hopener]
  exact hscan

theorem Yields.exists_enclosed {e : Enclosure} {source front behind : Text} {k : Nat} {t : Token}
    {ds : List Diagnostic} (h : source.Yields k t ds)
    (hsource : front ++ (e.opener ++ behind) = source) (hfront : front.size = t.span.start) :
    ∃ l rest, source.lexemes[k]? = some l ∧ l.evaluate front.size = (t, ds) ∧
      Lexeme.enclosed (e.tag true) (e.tag false) e.opener e.closer behind = (l, rest) := by
  obtain ⟨l, hl, he⟩ := yields_iff.1 h
  have hstart : size ((source.lexemes.take k).flatMap Lexeme.text) = front.size := by
    rw [hfront]
    exact congrArg (fun x => x.1.span.start) he
  rw [hstart] at he
  exact ⟨l, _, hl, he, enclosed_of_getElem? hl hsource hstart⟩

theorem Yields.opens_comment {source : Text} {k : Nat} {t : Token} {ds : List Diagnostic}
    (h : source.Yields k t ds) (hkind : t.kind = .blockComment) : ∃ front behind,
      front ++ (Enclosure.comment.opener ++ behind) = source ∧ front.size = t.span.start := by
  obtain ⟨l, hl, he⟩ := yields_iff.1 h
  obtain ⟨rfl, -⟩ := Prod.mk.inj he
  have htag := Evaluation.tag_of_kind_blockComment hkind
  obtain ⟨form, hproper, rfl⟩ := exists_form_of_mem (List.mem_of_getElem? hl)
  have htext := append_of_getElem? hl
  rw [← lexemes_eq] at htext
  cases form with
  | comment body closed =>
    refine ⟨_, body ++ (source.lexemes.drop (k + 1)).flatMap Lexeme.text, ?_, rfl⟩
    simpa [Form.lexeme, Enclosure.opener] using htext
  | faultless tag text =>
    have hfaultless : tag.isFaultless = true := hproper
    rcases htag with rfl | rfl <;> cases hfaultless
  | quoted kind content closed =>
    cases kind <;> cases closed <;> simp [Form.lexeme, QuotedKind.tag] at htag
  | tripleQuoted quote body closed => cases closed <;> simp [Form.lexeme] at htag
  | _ => simp [Form.lexeme] at htag

/-- **A form is closed where its closer first occurs.** The token that stands at an opener, of three
quotes or of a comment, has all up to the first closer behind it, and nothing is wrong with it;
where no closer occurs it has all to the end of the source, and is reported as open. Block comments
stand at openers. A content that its closer closes no earlier is read back, whatever follows. -/
theorem closes_first :
    (∀ (source : Text) (k : Nat) (t : Token) (ds : List Diagnostic), source.Yields k t ds →
      (∀ (e : Enclosure) (front behind : Text), front ++ (e.opener ++ behind) = source →
        front.size = t.span.start →
        (e.closer <:+: behind → ∃ content rest, content ++ (e.closer ++ rest) = behind ∧
          e.ClosesFirst content ∧ source.lexemes[k]? = some (e.lexeme content true) ∧
          t = e.token content true front.size ∧ ds = []) ∧
        (¬e.closer <:+: behind → source.lexemes[k]? = some (e.lexeme behind false) ∧
          t = e.token behind false front.size ∧ t.span.stop = source.size ∧
          ds = [⟨t.span, e.defect⟩])) ∧
      (t.kind = .blockComment → ∃ front behind,
        front ++ (Enclosure.comment.opener ++ behind) = source ∧ front.size = t.span.start)) ∧
    ∀ (e : Enclosure) (content : Text), e.ClosesFirst content → ∀ rest,
      (e.opener ++ (content ++ (e.closer ++ rest))).Yields 0 (e.token content true 0) [] := by
  refine ⟨fun source k t ds h => ⟨fun e front behind hsource hfront => ?_, h.opens_comment⟩,
    fun e content hfirst rest => ?_⟩
  · obtain ⟨l, rest, hl, he, henclosed⟩ := h.exists_enclosed hsource hfront
    constructor
    · intro hoccurs
      obtain ⟨content, rest', rfl, hfirst⟩ := Enclosure.exists_closesFirst hoccurs
      rw [Enclosure.enclosed_closed hfirst] at henclosed
      obtain ⟨rfl, -⟩ := Prod.mk.inj henclosed
      rw [e.evaluate_lexeme] at he
      obtain ⟨rfl, rfl⟩ := Prod.mk.inj he
      exact ⟨content, rest', rfl, hfirst, hl, rfl, rfl⟩
    · intro hnone
      rw [Enclosure.enclosed_open hnone] at henclosed
      obtain ⟨rfl, -⟩ := Prod.mk.inj henclosed
      rw [e.evaluate_lexeme] at he
      obtain ⟨rfl, rfl⟩ := Prod.mk.inj he
      refine ⟨hl, rfl, ?_, rfl⟩
      rw [← hsource]
      simp [Enclosure.token, Enclosure.lexeme, Span.ofLength]
  · obtain ⟨c, u, hu⟩ : ∃ c u, e.opener ++ (content ++ (e.closer ++ rest)) = c :: u := by
      cases e <;> exact ⟨_, _, rfl⟩
    have hscan : Lexeme.scan none c u = (e.lexeme content true, rest) := by
      rw [e.scan_opener none hu, Enclosure.enclosed_closed hfirst]
    rw [hu, yields_iff, lexemes_eq, lexemesAfter_cons hscan]
    exact ⟨_, rfl, e.evaluate_lexeme content true 0⟩

/-- A fourth quote behind the opener belongs to the content, and of four quotes behind a content the
last one does not belong to the string. The asterisk of an opener does not close a comment. -/
theorem closes_first_four_quotes :
    Yields "\"\"\"\"a\"\"\"\"".toList 0 ⟨.string, ⟨0, 8⟩, .string "\"a".toList⟩ [] ∧
      Yields "/*/".toList 0 ⟨.blockComment, ⟨0, 3⟩, .absent⟩ [⟨⟨0, 3⟩, .unterminatedComment⟩] := by
  obtain ⟨hstands, hread⟩ := closes_first
  have hfirst : Enclosure.doubleQuotes.ClosesFirst "\"a".toList := by decide +kernel
  refine ⟨hread .doubleQuotes _ hfirst ['\x22'], ?_⟩
  have htoken : (tokenize "/*/".toList).tokens[0]? = some ⟨.blockComment, ⟨0, 3⟩, .absent⟩ := by
    decide +kernel
  obtain ⟨ds, hyields⟩ := exists_yields htoken
  obtain ⟨-, hopen⟩ := (hstands _ _ _ _ hyields).1 .comment [] ['/'] rfl rfl
  obtain ⟨-, -, -, rfl⟩ := hopen (mt List.IsInfix.length_le (by decide))
  exact hyields

end Text

end LesTokens
