/-
Tokens as JSON.
-/
import LesTokens.JsonValue
import LesTokens.Token

namespace LesTokens

/-- A value as an object with the name of its type as key; a decimal as its text. A float that is
not finite has no number and is null. -/
def Value.toJson : Value → JsonValue
  | absent => .str "None"
  | name t => .object [("Name", .string t)]
  | string t => .object [("Str", .string t)]
  | char c => .object [("Char", .string [c])]
  | integer type n => .object [(type.label, .number (toString n))]
  | float type v =>
    .object [(type.label,
      if v.isFinite then .number (type.jsonNotation.write type.format v) else .null)]
  | decimal d => .object [("Decimal", .str d.render)]

def Span.toJson (s : Span) : JsonValue := .object [("start", .nat s.start), ("end", .nat s.stop)]

def Token.toJson (t : Token) : JsonValue :=
  .object [("kind", .str t.kind.label), ("span", t.span.toJson), ("value", t.value.toJson)]

end LesTokens
