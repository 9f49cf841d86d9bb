/-
The body of a one-line quoted form, after its opening quote: up to and with the closing quote, or
up to the end of the line. A backslash takes the next character with it unless that character ends
the line.

`QuotedBody.scan_append`: the body and what follows it make up the text.
-/
import LesTokens.CharClass

namespace LesTokens

/-- A scanned body: its text, with the closing quote if it is closed, and what follows. -/
structure QuotedBody where
  text : Text
  closed : Bool
  rest : Text
  deriving DecidableEq, Repr

namespace QuotedBody

/-- Whether a character is an ordinary one in a body closed by `quote`. -/
def isPlain (quote c : Char) : Bool := !(c = quote || c = '\\' || isLineEnd c)

/-- Puts text before a body. -/
def prepend (t : Text) (b : QuotedBody) : QuotedBody := { b with text := t ++ b.text }

theorem length_dropWhile_le {p : Char → Bool} (t : Text) :
    (t.dropWhile p).length ≤ t.length := by
  have h := congrArg List.length (List.takeWhile_append_dropWhile (p := p) (l := t))
  simp only [List.length_append] at h
  omega

/-- The body at the front of a text: skips ordinary characters, then looks at what stopped it. -/
def scan (quote : Char) (t : Text) : QuotedBody :=
  let plain := t.takeWhile (isPlain quote)
  match _h : t.dropWhile (isPlain quote) with
  | [] => ⟨plain, false, []⟩
  | c :: after =>
    if c = quote then ⟨plain ++ [c], true, after⟩
    else if c = '\\' then
      match after with
      | [] => ⟨plain ++ [c], false, []⟩
      | d :: after =>
        if isLineEnd d then ⟨plain ++ [c], false, d :: after⟩
        else (scan quote after).prepend (plain ++ [c, d])
    else ⟨plain, false, c :: after⟩
termination_by t.length
decreasing_by
  have := length_dropWhile_le (p := isPlain quote) t
  simp only [_h, List.length_cons] at this
  omega

theorem scan_append (quote : Char) (t : Text) : (scan quote t).text ++ (scan quote t).rest = t := by
  have split (t : Text) := List.takeWhile_append_dropWhile (p := isPlain quote) (l := t)
  fun_induction scan quote t with
  | case1 t plain h => have e := split t; rw [h] at e; exact e
  | case2 t plain after h => have e := split t; rw [h] at e; simpa using e
  | case3 t plain _ _ h => have e := split t; rw [h] at e; simpa using e
  | case4 t plain d after _ _ _ h => have e := split t; rw [h] at e; simpa using e
  | case5 t plain d after _ _ h _ ih =>
    have e := split t
    rw [h] at e
    simp [prepend, ih, plain, e]
  | case6 t plain c after h => have e := split t; rw [h] at e; simpa using e

end QuotedBody

end LesTokens
