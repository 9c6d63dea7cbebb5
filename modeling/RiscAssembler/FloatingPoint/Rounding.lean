/-!
Contract: rounding of exact quotients to the magnitudes of a binary floating-point format.

Owns:
- the two formats of the language, double and single precision;
- the magnitudes of a format, numbered in increasing order by their bit patterns without sign;
- the exact value of a magnitude, counted in units of the least subnormal;
- rounding to the nearest magnitude, a tie going to the even pattern.

Every quantity is a natural number. A quotient is given by a numerator in units of the least
subnormal and a denominator, so nothing is rounded before the one rounding that is meant.
-/

namespace RiscAssembler.FloatingPoint

/-- A binary interchange format: `precision` bits of significand, the leading one included, and
`exponentBits` bits of exponent. -/
structure BinaryFormat where
  precision : Nat
  exponentBits : Nat
deriving DecidableEq, Repr

def double : BinaryFormat := ⟨53, 11⟩

def single : BinaryFormat := ⟨24, 8⟩

/-- The nearest integer to a quotient; a half goes to the even neighbour. -/
def roundedQuotient (numerator denominator : Nat) : Nat :=
  let quotient := numerator / denominator
  let remainder := numerator % denominator
  if 2 * remainder < denominator then quotient
  else if denominator < 2 * remainder then quotient + 1
  else quotient + quotient % 2

namespace BinaryFormat

/-- The number of significands that share one exponent. -/
def binade (format : BinaryFormat) : Nat :=
  Nat.pow 2 (format.precision - 1)

/-- The pattern of infinity; the finite magnitudes lie below it. -/
def infinity (format : BinaryFormat) : Nat :=
  (Nat.pow 2 format.exponentBits - 1) * format.binade

/-- The exponent of the power of two that divides one into units of the least subnormal. -/
def unitExponent (format : BinaryFormat) : Nat :=
  format.precision + Nat.pow 2 (format.exponentBits - 1) - 3

/-- The value of a finite magnitude in units of the least subnormal. -/
def units (format : BinaryFormat) (pattern : Nat) : Nat :=
  if pattern < format.binade then pattern
  else (format.binade + pattern % format.binade) * Nat.pow 2 (pattern / format.binade - 1)

/-- The magnitude nearest to a quotient of units, ties to the even pattern. From half a step
beyond the greatest finite magnitude on, it is infinity. -/
def round (format : BinaryFormat) (numerator denominator : Nat) : Nat :=
  let shift := (numerator / denominator).log2 - (format.precision - 1)
  min format.infinity
    (shift * format.binade + roundedQuotient numerator (denominator * Nat.pow 2 shift))

end BinaryFormat

end RiscAssembler.FloatingPoint
