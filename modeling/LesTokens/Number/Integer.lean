/-
The value of a number without fraction, exponent or floating suffix: the exact value, at the first
type that its sign and suffix allow and that holds it.
-/
import LesTokens.Number.Literal
import LesTokens.Token.Value

namespace LesTokens.Literal

/-- The magnitude of the digits before the point. -/
def magnitude (l : Literal) : Nat := valueOfDigits l.base.radix (digitValues l.integer)

/-- The types that a number may have, in the order in which they are tried, and what it does not
fit in if it has none of them. -/
def integerTypes (negative : Bool) : NumberSuffix → List IntegerType × NumberTarget
  | .unsigned => if negative then ([], .anyUnsigned) else ([.uint32], .uint32)
  | .long => ([.int64], .int64)
  | .unsignedLong => if negative then ([], .anyUnsigned) else ([.uint64], .uint64)
  | _ =>
    if negative then ([.int32, .int64], .int64)
    else ([.int32, .uint32, .int64, .uint64], .uint64)

/-- The greatest magnitude that is tried against the types at all, with either sign. -/
def maxMagnitude (negative : Bool) : Nat :=
  if negative then Nat.pow 2 127 - 1 else Nat.pow 2 128 - 1

/-- The value of an integer. A magnitude beyond 128 bits is reported for the widest type,
whatever the suffix. -/
def integerValue (l : Literal) : Except NumberError Value :=
  if maxMagnitude false < l.magnitude then .error (.overflow .uint64)
  else if maxMagnitude l.negative < l.magnitude then .error (.overflow .int64)
  else
    let n : Int := if l.negative then -l.magnitude else l.magnitude
    let (types, target) := integerTypes l.negative l.suffix
    match types.find? (·.holds n) with
    | some type => .ok (.integer type n)
    | none => .error (.overflow target)

end LesTokens.Literal
