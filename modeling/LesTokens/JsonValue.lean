/-
JSON values and their text, on one line or laid out over many.
-/
import LesTokens.Text

namespace LesTokens

/-- A JSON value. A number is kept as its text, a list of fields in its order. -/
inductive JsonValue where
  | null
  | number (text : String)
  | string (text : Text)
  | array (items : List JsonValue)
  | object (fields : List (String × JsonValue))

namespace JsonValue

/-- A natural number. -/
def nat (n : Nat) : JsonValue := number (toString n)

/-- A string. -/
def str (s : String) : JsonValue := string s.toList

/-- A character as it stands in a JSON string. -/
def escaped (c : Char) : Text :=
  if c = '\x22' then ['\\', c]
  else if c = '\\' then ['\\', c]
  else if c = '\x08' then ['\\', 'b']
  else if c = '\x0c' then ['\\', 'f']
  else if c = '\n' then ['\\', 'n']
  else if c = '\r' then ['\\', 'r']
  else if c = '\t' then ['\\', 't']
  else if c.toNat < 32 then
    ['\\', 'u', '0', '0', Nat.digitChar (c.toNat / 16), Nat.digitChar (c.toNat % 16)]
  else [c]

/-- A JSON string. -/
def quoted (t : Text) : String :=
  String.ofList ('\x22' :: (t.flatMap escaped ++ ['\x22']))

/-- What stands between the parts of a value: `lineBreak` before each part of an array or object
and before its end, at a depth, and `colon` after a key. -/
structure Layout where
  lineBreak : Nat → String
  colon : String

/-- All on one line. -/
def Layout.compact : Layout := ⟨fun _ => "", ":"⟩

/-- Each part on a line of its own, indented by two spaces for each level. -/
def Layout.indented : Layout :=
  ⟨fun depth => String.ofList ('\n' :: List.replicate (2 * depth) ' '), ": "⟩

mutual

/-- Writes a value after `out`. -/
def write (layout : Layout) (depth : Nat) (out : String) : JsonValue → String
  | null => out ++ "null"
  | number t => out ++ t
  | string t => out ++ quoted t
  | array [] => out ++ "[]"
  | array (x :: xs) =>
    let out := write layout (depth + 1) (out ++ "[" ++ layout.lineBreak (depth + 1)) x
    writeItems layout (depth + 1) out xs ++ layout.lineBreak depth ++ "]"
  | object [] => out ++ "\x7b\x7d"
  | object ((key, x) :: fields) =>
    let out := out ++ "\x7b" ++ layout.lineBreak (depth + 1) ++ quoted key.toList ++ layout.colon
    let out := write layout (depth + 1) out x
    writeFields layout (depth + 1) out fields ++ layout.lineBreak depth ++ "\x7d"

/-- Writes the items of an array that follow its first. -/
def writeItems (layout : Layout) (depth : Nat) (out : String) : List JsonValue → String
  | [] => out
  | x :: xs =>
    writeItems layout depth (write layout depth (out ++ "," ++ layout.lineBreak depth) x) xs

/-- Writes the fields of an object that follow its first. -/
def writeFields (layout : Layout) (depth : Nat) (out : String) : List (String × JsonValue) → String
  | [] => out
  | (key, x) :: fields =>
    let out := out ++ "," ++ layout.lineBreak depth ++ quoted key.toList ++ layout.colon
    writeFields layout depth (write layout depth out x) fields

end

/-- A value on one line. -/
def compact (v : JsonValue) : String := write .compact 0 "" v

/-- A value over many lines. -/
def indented (v : JsonValue) : String := write .indented 0 "" v

end JsonValue

end LesTokens
