/-
Line endings: `\n`, `\r\n`, and a `\r` on its own. A newline lexeme is a run of one ending,
repeated; a `\r` before a `\n` always belongs to the pair.

`run_append`: a run and what follows it make up the text.
-/
import LesTokens.CharClass

namespace LesTokens

/-- The three ways to end a line. -/
inductive LineEnding where
  | lf
  | cr
  | crlf
  deriving DecidableEq, Repr

namespace LineEnding

def text : LineEnding → Text
  | lf => ['\n']
  | cr => ['\r']
  | crlf => ['\r', '\n']

/-- The line ending a text opens with. -/
def opening? : Text → Option LineEnding
  | '\r' :: '\n' :: _ => some crlf
  | '\r' :: _ => some cr
  | '\n' :: _ => some lf
  | _ => none

/-- The longest run of one ending at the front of a text, and what follows it. -/
def run (ending : LineEnding) : Text → Text × Text
  | '\r' :: '\n' :: t =>
    if ending = crlf then
      let (taken, rest) := run ending t
      ('\r' :: '\n' :: taken, rest)
    else ([], '\r' :: '\n' :: t)
  | '\r' :: t =>
    if ending = cr then
      let (taken, rest) := run ending t
      ('\r' :: taken, rest)
    else ([], '\r' :: t)
  | '\n' :: t =>
    if ending = lf then
      let (taken, rest) := run ending t
      ('\n' :: taken, rest)
    else ([], '\n' :: t)
  | t => ([], t)

theorem run_append (ending : LineEnding) (t : Text) :
    (run ending t).1 ++ (run ending t).2 = t := by
  fun_induction run ending t <;> simp_all

theorem run_ne_nil {ending : LineEnding} {t : Text} (h : opening? t = some ending) :
    (run ending t).1 ≠ [] := by
  fun_cases opening? t <;> simp_all [opening?] <;> subst h <;> simp [run]

end LineEnding

/-- The rest of a line, without its ending. -/
def restOfLine (t : Text) : Text := t.takeWhile (!isLineEnd ·)

/-- What follows the rest of a line: its ending, if it has one, and all after it. -/
def afterLine (t : Text) : Text := t.dropWhile (!isLineEnd ·)

theorem restOfLine_append (t : Text) : restOfLine t ++ afterLine t = t :=
  List.takeWhile_append_dropWhile

end LesTokens
