import RiscAssembler.FloatingPoint.Shortest

/-!
Contract: the text of a floating-point number in JSON.

Owns:
- the shortest digits that read back as the number;
- the choice between positional and scientific notation, and the form of each.

Zero and every number from 10^-5 up to, not including, 10^16 is positional and has at least one
digit on each side of the point. Any other finite number has one digit before the point, a point
only if more digits follow, and an exponent with its sign. What is not finite is `null`.
-/

namespace RiscAssembler.Json

/-- The greatest place of the point, counted in digits from the left, in positional notation. -/
def greatestPoint : Int := 16

/-- The least place of the point, counted in digits from the left, in positional notation. -/
def leastPoint : Int := -4

/-- The digits with the point behind the first `point` of them, with zeros where there are none. -/
def positional (digits : List Char) (point : Int) : List Char :=
  if point ≤ 0 then
    '0' :: '.' :: List.replicate (-point).toNat '0' ++ digits
  else
    let whole := digits.take point.toNat
    let fraction := digits.drop point.toNat
    whole ++ List.replicate (point.toNat - whole.length) '0' ++
      '.' :: if fraction.isEmpty then ['0'] else fraction

/-- One digit, the others behind the point, and the exponent. -/
def scientific (digits : List Char) (point : Int) : List Char :=
  let exponent := point - 1
  let rest := digits.drop 1
  digits.take 1 ++ (if rest.isEmpty then [] else '.' :: rest) ++
    ['e', if exponent < 0 then '-' else '+'] ++ Text.decimal exponent.natAbs

/-- The digits of a decimal without the zeros at their end, and the place of the point. -/
def significantDigits (decimal : Decimal) : List Char × Int :=
  let digits := Text.decimal decimal.significand
  ((digits.reverse.dropWhile (· = '0')).reverse, digits.length + decimal.exponent)

def magnitudeText (magnitude : Nat) : List Char :=
  if magnitude = 0 then ['0', '.', '0']
  else
    let (digits, point) := significantDigits (Decimal.shortest magnitude)
    if leastPoint ≤ point ∧ point ≤ greatestPoint then positional digits point
    else scientific digits point

def floatText (number : Double) : List Char :=
  if number.isFinite then
    (if number.isNegative then ['-'] else []) ++ magnitudeText number.magnitude
  else ['n', 'u', 'l', 'l']

end RiscAssembler.Json
