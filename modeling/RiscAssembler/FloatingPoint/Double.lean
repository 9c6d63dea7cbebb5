import RiscAssembler.FloatingPoint.Rounding

/-!
Contract: double-precision numbers as bit patterns, read from decimals and narrowed to single
precision.

Owns:
- the sign and the magnitude of a pattern;
- the double nearest to a decimal fraction;
- the single-precision pattern nearest to a double.

Both conversions go through `BinaryFormat.round`, on exact quotients.
-/

namespace RiscAssembler

/-- A double-precision number, told apart from every other by its bits. -/
structure Double where
  bits : BitVec 64
deriving DecidableEq, Repr

namespace Double

open FloatingPoint

def isNegative (number : Double) : Bool :=
  number.bits.msb

/-- The pattern without its sign. -/
def magnitude (number : Double) : Nat :=
  number.bits.toNat % Nat.pow 2 63

def ofMagnitude (negative : Bool) (magnitude : Nat) : Double :=
  ⟨BitVec.ofBool negative ++ BitVec.ofNat 63 magnitude⟩

def isFinite (number : Double) : Bool :=
  number.magnitude < double.infinity

/-- The double nearest to `digits / 10 ^ places`, with the given sign. -/
def ofDecimal (negative : Bool) (digits places : Nat) : Double :=
  ofMagnitude negative (double.round (digits * Nat.pow 2 double.unitExponent) (Nat.pow 10 places))

/-- The single-precision pattern nearest to a double, ties to even. Infinity stays infinity, and
what is not a number becomes the quiet pattern without payload. -/
def toSingle (number : Double) : BitVec 32 :=
  let magnitude :=
    if double.infinity < number.magnitude then single.infinity + single.binade / 2
    else single.round (double.units number.magnitude)
      (Nat.pow 2 (double.unitExponent - single.unitExponent))
  BitVec.ofBool number.isNegative ++ BitVec.ofNat 31 magnitude

end Double

end RiscAssembler
