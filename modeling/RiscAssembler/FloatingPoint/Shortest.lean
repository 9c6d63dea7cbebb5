import RiscAssembler.FloatingPoint.Double
import RiscAssembler.Text

/-!
Contract: the shortest decimal that reads back as a given double.

Owns:
- decimals `significand * 10 ^ exponent` and the double magnitude nearest to one;
- the two neighbours of a double on a decimal grid;
- the choice among the decimals that read back: the fewest digits, of these the nearest, and of
  two equally near the one with an even last digit.

A decimal is accepted only after it has been read back, by the same rounding that reads a
literal.
-/

namespace RiscAssembler

structure Decimal where
  significand : Nat
  exponent : Int
deriving DecidableEq, Repr

namespace Decimal

open FloatingPoint

def magnitude (decimal : Decimal) : Nat :=
  double.round
    (decimal.significand * Nat.pow 10 decimal.exponent.toNat * Nat.pow 2 double.unitExponent)
    (Nat.pow 10 (-decimal.exponent).toNat)

/-- The exponent of the leading decimal digit of a positive quotient. -/
def leadingExponent (numerator denominator : Nat) : Int :=
  if denominator ≤ numerator then (Text.decimal (numerator / denominator)).length - 1
  else -(Text.decimal ((denominator - 1) / numerator)).length

/-- The neighbour, on the grid of multiples of `10 ^ exponent`, that stands for a double: one that
reads back, the nearer if both do, and the even one if both are equally near. -/
def onGrid? (magnitude : Nat) (exponent : Int) : Option Decimal :=
  let numerator := double.units magnitude * Nat.pow 10 (-exponent).toNat
  let denominator := Nat.pow 2 double.unitExponent * Nat.pow 10 exponent.toNat
  let below : Decimal := ⟨numerator / denominator, exponent⟩
  let above : Decimal := ⟨numerator / denominator + 1, exponent⟩
  let nearest : Decimal := ⟨roundedQuotient numerator denominator, exponent⟩
  if nearest.magnitude = magnitude then some nearest
  else if below.magnitude = magnitude then some below
  else if above.magnitude = magnitude then some above
  else none

/-- The decimal with every digit of a double, which always reads back. -/
def exact (magnitude : Nat) : Decimal :=
  ⟨double.units magnitude * Nat.pow 5 double.unitExponent, -double.unitExponent⟩

/-- The shortest decimal for a finite magnitude above zero. Seventeen digits always suffice. -/
def shortest (magnitude : Nat) : Decimal :=
  let leading := leadingExponent (double.units magnitude) (Nat.pow 2 double.unitExponent)
  ((List.range 17).findSome? fun (places : Nat) => onGrid? magnitude (leading - places)).getD
    (exact magnitude)

end Decimal

end RiscAssembler
