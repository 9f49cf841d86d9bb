/-
Floating-point numbers as the bit patterns of the interchange formats: a sign bit, a biased
exponent and a fraction, from the highest bit down.
-/
import LesTokens.Floating

namespace LesTokens.Floating

/-- The weight of the lowest exponent bit, which is the number of fractions. -/
def exponentWeight (f : FloatFormat) : Nat := Nat.pow 2 (f.precision - 1)

/-- The biased exponent of what is not finite. -/
def specialExponent (f : FloatFormat) : Nat := (f.maxExponent - f.minExponent + 2).toNat

/-- The weight of the sign bit. -/
def signWeight (f : FloatFormat) : Nat := exponentWeight f * (specialExponent f + 1)

/-- The bit pattern of a number of a format. -/
def toBits (f : FloatFormat) : Floating → Nat
  | nan => exponentWeight f * specialExponent f + exponentWeight f / 2
  | infinite negative => negative.toNat * signWeight f + exponentWeight f * specialExponent f
  | finite negative s e =>
    let biased := if s < exponentWeight f then 0 else (e - f.minExponent).toNat
    negative.toNat * signWeight f + exponentWeight f * biased + s

/-- The number of a format that a bit pattern stands for. -/
def ofBits (f : FloatFormat) (bits : Nat) : Floating :=
  let negative := signWeight f ≤ bits
  let magnitude := bits % signWeight f
  let biased := magnitude / exponentWeight f
  let fraction := magnitude % exponentWeight f
  if biased = specialExponent f then
    if fraction = 0 then infinite negative else nan
  else if biased = 0 then finite negative fraction f.minExponent
  else finite negative (exponentWeight f + fraction) (f.minExponent + biased - 1)

end LesTokens.Floating
