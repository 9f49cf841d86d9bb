/-
The stream of tokens of a source text. Each call gives one token and hands what is wrong with it
to a sink; a sink is any state that takes diagnostics one by one, such as a list that keeps them or
a function that is called with each.
-/
import LesTokens.Evaluation
import LesTokens.Scanner

namespace LesTokens

/-! ## One token -/

/-- A lexeme that stands at an offset. -/
def Lexeme.evaluate (l : Lexeme) (offset : Nat) : Token × List Diagnostic :=
  let span := Span.ofLength offset l.text.size
  let e := Evaluation.ofLexeme l.tag l.text span
  (e.token span, e.diagnostics)

/-- An extent at an offset of a source. With an end inside a scalar or past the end of the source
it has no text. -/
def Extent.evaluate (e : Extent) (source : Text) (offset : Nat) : Token × List Diagnostic :=
  let span := Span.ofLength offset e.length
  let e := Evaluation.ofLexeme e.tag ((source.slice? span.start span.stop).getD []) span
  (e.token span, e.diagnostics)

/-! ## Sinks -/

/-- A state that takes diagnostics. -/
class DiagnosticSink (σ : Type) where
  report : σ → Diagnostic → σ

/-- Keeps every diagnostic, in order. -/
instance : DiagnosticSink (Array Diagnostic) where
  report := Array.push

/-- A function called with the span and the message of each diagnostic, and the state it has
reached. -/
structure Callback (σ : Type) where
  call : σ → Span → String → σ
  state : σ

instance {σ : Type} : DiagnosticSink (Callback σ) where
  report c d := { c with state := c.call c.state d.span d.message }

/-! ## The stream -/

/-- A lexer: the place it has reached, whether it has seen the end, and its sink. -/
structure Lexer (σ : Type) where
  scanner : Scanner
  done : Bool
  sink : σ

namespace Lexer

variable {σ : Type} [DiagnosticSink σ]

/-- The lexer at the start of a source. -/
def ofText (source : Text) (sink : σ) : Lexer σ := ⟨.ofText source, false, sink⟩

/-- The next token, and the lexer after it, whose sink has taken what is wrong with the token. At
the end there is no token, however often it is asked for. -/
def next (l : Lexer σ) : Option Token × Lexer σ :=
  if l.done then (none, l)
  else match l.scanner.next? with
    | none => (none, { l with done := true })
    | some (lexeme, scanner) =>
      let (token, diagnostics) := lexeme.evaluate l.scanner.position
      (some token, ⟨scanner, false, diagnostics.foldl DiagnosticSink.report l.sink⟩)

theorem length_rest_lt {l l' : Lexer σ} {t : Token} (h : l.next = (some t, l')) :
    l'.scanner.rest.length < l.scanner.rest.length := by
  unfold next at h
  split at h
  · simp at h
  · split at h
    · simp at h
    · rename_i h'
      simp only [Prod.mk.injEq] at h
      obtain ⟨_, rfl⟩ := h
      exact Scanner.length_rest_lt h'

/-- All tokens up to the end after `tokens`, and the sink after the last of them. -/
def collect (l : Lexer σ) (tokens : Array Token) : Array Token × σ :=
  match _h : l.next with
  | (none, l') => (tokens, l'.sink)
  | (some t, l') => l'.collect (tokens.push t)
termination_by l.scanner.rest.length
decreasing_by exact length_rest_lt _h

end Lexer

/-! ## A whole source -/

/-- All tokens of a source, and all that is wrong with it. -/
structure Tokenized where
  tokens : List Token
  diagnostics : List Diagnostic
  deriving DecidableEq, Repr

def Tokenized.hasErrors (t : Tokenized) : Bool := !t.diagnostics.isEmpty

/-- The tokens of a source. -/
def Text.tokenize (source : Text) : Tokenized :=
  let (tokens, diagnostics) := (Lexer.ofText source (#[] : Array Diagnostic)).collect #[]
  ⟨tokens.toList, diagnostics.toList⟩

end LesTokens
