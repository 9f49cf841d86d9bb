/-
The shortest decimal that reads back as a given floating-point number.

Every real number within half a unit of the number's last place reads back as it; at a power of
two the unit below is half as large, and the two ends belong to the interval if the significand is
even. On the coarsest decimal grid with a point in that interval, one of the two neighbours of the
number is in it; of two, the nearer is the answer.
-/
import LesTokens.Floating

namespace LesTokens

/-- Which of two equally near decimals is taken. -/
inductive TieBreak where
  | awayFromZero
  | toEven
  deriving DecidableEq, Repr

/-- The decimal `significand * 10 ^ exponent`. -/
structure ShortDecimal where
  significand : Nat
  exponent : Int
  deriving DecidableEq, Repr

namespace ShortDecimal

/-- The number of decimal digits, one for zero. -/
def digitCount (n : Nat) : Nat := (Nat.toDigits 10 n).length

/-- The least `k` for which a positive quotient is below `10 ^ k`. -/
def magnitude (num den : Nat) : Int :=
  if den ≤ num then digitCount (num / den) else 1 - (digitCount ((den - 1) / num) : Int)

/-- Whether `point` lies between `low` and `high`, or with `closed` on one of them. -/
def inInterval (closed : Bool) (low high point : Nat) : Bool :=
  if closed then low ≤ point && point ≤ high else low < point && point < high

/-- The multiple of `10 ^ k` that reads back as `s * 2 ^ e`, if there is one; of two, the nearer.
All is measured in quarters of the unit in the last place. -/
def onGrid? (f : FloatFormat) (tie : TieBreak) (s : Nat) (e : Int) (k : Int) : Option Nat :=
  let unit := Nat.pow 10 (-k).toNat * Nat.pow 2 (e - 2).toNat
  let step := Nat.pow 10 k.toNat * Nat.pow 2 (2 - e).toNat
  let value := 4 * s * unit
  let below := if s = Nat.pow 2 (f.precision - 1) ∧ f.minExponent < e then 1 else 2
  let reads (d : Nat) : Bool :=
    inInterval (s % 2 = 0) ((4 * s - below) * unit) ((4 * s + 2) * unit) (d * step)
  let d := value / step
  match reads d, reads (d + 1) with
  | false, false => none
  | true, false => some d
  | false, true => some (d + 1)
  | true, true =>
    let toLower := value - d * step
    let toUpper := (d + 1) * step - value
    if toLower < toUpper then some d
    else if toUpper < toLower then some (d + 1)
    else match tie with
      | .awayFromZero => some (d + 1)
      | .toEven => some (if d % 2 = 0 then d else d + 1)

/-- The shortest decimal that reads back as `s * 2 ^ e`. -/
def ofFinite (f : FloatFormat) (tie : TieBreak) (s : Nat) (e : Int) : ShortDecimal :=
  if s = 0 then ⟨0, 0⟩
  else
    let top := magnitude (s * Nat.pow 2 e.toNat) (Nat.pow 2 (-e).toNat)
    let hit := (List.range (f.precision + 1)).findSome? fun (n : Nat) =>
      (onGrid? f tie s e (top - n)).map fun d => (⟨d, top - n⟩ : ShortDecimal)
    hit.getD ⟨s, 0⟩

end ShortDecimal

end LesTokens
