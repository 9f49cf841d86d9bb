/-
Where a lexeme stands moves its token and its diagnostics, and changes nothing else: evaluation at
an offset further on gives the same kind and value, and the same diagnostics further on
(`Lexeme.evaluate_add`).
-/
import LesTokens.Lexer

namespace LesTokens

theorem Span.ofLength_add (start length distance : Nat) :
    Span.ofLength (start + distance) length = (Span.ofLength start length).shift distance := by
  simp [Span.ofLength, Span.shift, Nat.add_right_comm]

/-! ## Escapes -/

theorem escapeDiagnostics_add (offset distance : Nat) (units : List EscapeUnit) :
    escapeDiagnostics (offset + distance) units =
      (escapeDiagnostics offset units).map (·.shift distance) := by
  induction units generalizing offset with
  | nil => rfl
  | cons u units ih =>
    have hrest := ih (offset + u.text.size)
    rw [Nat.add_right_comm] at hrest
    simp only [escapeDiagnostics]
    cases u.char with
    | some c => exact hrest
    | none =>
      rw [List.map_cons, ← hrest, Span.ofLength_add]
      rfl

theorem unescape?_add (content : Text) (offset distance : Nat) :
    unescape? content (offset + distance) =
      (unescape? content offset).map fun (t, ds) => (t, ds.map (·.shift distance)) := by
  unfold unescape?
  split
  · simp only [Option.map_some, escapeDiagnostics_add]
  · rfl

/-! ## Evaluations -/

namespace Evaluation

/-- The evaluation of the same lexeme the same distance further on. -/
def shift (e : Evaluation) (distance : Nat) : Evaluation :=
  { e with diagnostics := e.diagnostics.map (·.shift distance) }

theorem quotedContent_shift (t : Text) (span : Span) (quote : Char) (closed : Bool)
    (distance : Nat) : quotedContent t (span.shift distance) quote closed =
      ((quotedContent t span quote closed).1,
        (quotedContent t span quote closed).2.map (·.shift distance)) := by
  have hunescape (content : Text) : unescape? content ((span.shift distance).start + 1) =
      (unescape? content (span.start + 1)).map fun (t, ds) => (t, ds.map (·.shift distance)) := by
    rw [← unescape?_add, Nat.add_right_comm]
    rfl
  unfold quotedContent
  simp only [hunescape]
  cases unescape? (part t 1 (if closed then t.size - 1 else t.size)) (span.start + 1) with
  | none => cases closed <;> rfl
  | some x => cases closed <;> rfl

theorem character_shift (t : Text) (span : Span) (closed : Bool) (distance : Nat) :
    character t (span.shift distance) closed = (character t span closed).shift distance := by
  unfold character
  split
  · rfl
  · simp only [quotedContent_shift, shift, List.map_append]
    split <;> rfl

theorem escaped_shift (kind : Kind) (t : Text) (width : Nat) (span : Span) (closed : Bool)
    (distance : Nat) : escaped kind t width (span.shift distance) closed =
      (escaped kind t width span closed).shift distance := by
  have hspan : (⟨(span.shift distance).start + width, (span.shift distance).stop⟩ : Span) =
      (⟨span.start + width, span.stop⟩ : Span).shift distance := by
    simp only [Span.shift, Span.mk.injEq, and_true]
    omega
  unfold escaped
  simp only [hspan, quotedContent_shift]
  split
  · split <;> rfl
  · rfl

theorem number_shift (t : Text) (span : Span) (distance : Nat) :
    number t (span.shift distance) = (number t span).shift distance := by
  unfold number
  split <;> rfl

theorem tripleQuoted_shift (t : Text) (span : Span) (closed : Bool) (distance : Nat) :
    tripleQuoted t (span.shift distance) closed = (tripleQuoted t span closed).shift distance := by
  cases closed <;> rfl

/-- **Only the diagnostics of a lexeme tell where it stands.** -/
theorem ofLexeme_shift (tag : Tag) (t : Text) (span : Span) (distance : Nat) :
    ofLexeme tag t (span.shift distance) = (ofLexeme tag t span).shift distance := by
  cases tag with
  | number => exact number_shift ..
  | char | unterminatedChar => exact character_shift ..
  | escapedIdent | symbol | unterminatedEscapedIdent | unterminatedSymbol => exact escaped_shift ..
  | tripleQuote | unterminatedTripleQuote => exact tripleQuoted_shift ..
  | string | unterminatedString | backQuote | unterminatedBackQuote =>
    simp only [ofLexeme, quoted, quotedContent_shift]
    rfl
  | _ => rfl

end Evaluation

/-- **A lexeme further on gives the same token and the same diagnostics further on.** -/
theorem Lexeme.evaluate_add (l : Lexeme) (offset distance : Nat) :
    l.evaluate (offset + distance) = ((l.evaluate offset).1.shift distance,
      (l.evaluate offset).2.map (·.shift distance)) := by
  simp only [evaluate, Span.ofLength_add, Evaluation.ofLexeme_shift]
  rfl

end LesTokens
