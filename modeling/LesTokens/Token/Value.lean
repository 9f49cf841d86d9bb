/-
The value a token carries. A number keeps the type it was read at, so that `1` and `1L` are
different values.
-/
import LesTokens.Decimal
import LesTokens.Floating.Notation
import LesTokens.Text.Quoted

namespace LesTokens

/-- The integer types. -/
inductive IntegerType where
  | int32
  | uint32
  | int64
  | uint64
  deriving DecidableEq, Repr

namespace IntegerType

/-- Whether an integer is a value of the type. -/
def holds : IntegerType → Int → Bool
  | int32, n => -(Nat.pow 2 31 : Nat) ≤ n && n < (Nat.pow 2 31 : Nat)
  | uint32, n => 0 ≤ n && n < (Nat.pow 2 32 : Nat)
  | int64, n => -(Nat.pow 2 63 : Nat) ≤ n && n < (Nat.pow 2 63 : Nat)
  | uint64, n => 0 ≤ n && n < (Nat.pow 2 64 : Nat)

/-- The suffix that a value of the type is shown with. -/
def suffix : IntegerType → String
  | int32 => ""
  | uint32 => "u"
  | int64 => "L"
  | uint64 => "uL"

def label : IntegerType → String
  | int32 => "I32"
  | uint32 => "U32"
  | int64 => "I64"
  | uint64 => "U64"

end IntegerType

/-- The floating-point types. -/
inductive FloatType where
  | single
  | double
  deriving DecidableEq, Repr

namespace FloatType

def format : FloatType → FloatFormat
  | single => .single
  | double => .double

/-- The suffix that a value of the type is shown with. -/
def suffix : FloatType → String
  | single => "f"
  | double => "d"

def label : FloatType → String
  | single => "F32"
  | double => "F64"

/-- The notation of the type's values in JSON: without an exponent from `1e-6` to below `1e13`, for
the wider type from `1e-5` to below `1e16`. -/
def jsonNotation : FloatType → FloatNotation
  | single => .json (-6) 13
  | double => .json (-5) 16

end FloatType

/-- The value of a token. -/
inductive Value where
  /-- No value. -/
  | absent
  /-- The name of an identifier, a symbol or an operator. -/
  | name (text : Text)
  | string (text : Text)
  | char (c : Char)
  | integer (type : IntegerType) (value : Int)
  | float (type : FloatType) (value : Floating)
  | decimal (value : Decimal)
  deriving DecidableEq, Repr

namespace Value

def isNumeric : Value → Bool
  | integer .. | float .. | decimal _ => true
  | _ => false

def name? : Value → Option Text
  | name t => some t
  | _ => none

def string? : Value → Option Text
  | string t => some t
  | _ => none

/-- Whether two values compare as equal. A float that is not a number is equal to nothing. -/
def same : Value → Value → Bool
  | float type v, float type' v' => type = type' && v.same v'
  | a, b => a = b

/-- A value as it would be written in a source, except that a name stands for itself. -/
def render : Value → String
  | absent => ""
  | name t => String.ofList t
  | string t => String.ofList t.quoted
  | char c => String.ofList (Text.quotedChar c)
  | integer type n => toString n ++ type.suffix
  | float type v => FloatNotation.plain.write type.format v ++ type.suffix
  | decimal d => d.render ++ "m"

/-- A name as listings show it. -/
def inspectName (t : Text) : String := "Symbol(" ++ String.ofList t.quoted ++ ")"

/-- A decimal as listings show it, part by part. -/
def inspectDecimal (d : Decimal) : String :=
  "Decimal \x7b mantissa: " ++ toString d.mantissa ++ ", scale: " ++ toString d.scale ++
    ", negative: " ++ toString d.negative ++ " \x7d"

/-- A value as listings show it, with the name of its type. -/
def inspect : Value → String
  | absent => "None"
  | name t => "Name(" ++ inspectName t ++ ")"
  | string t => "Str(" ++ String.ofList t.quoted ++ ")"
  | char c => "Char(" ++ String.ofList (Text.quotedChar c) ++ ")"
  | integer type n => type.label ++ "(" ++ toString n ++ ")"
  | float type v => type.label ++ "(" ++ FloatNotation.listing.write type.format v ++ ")"
  | decimal d => "Decimal(" ++ inspectDecimal d ++ ")"

end Value

end LesTokens
