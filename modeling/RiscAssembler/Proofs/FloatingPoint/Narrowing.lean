import Mathlib.Tactic.NormNum
import RiscAssembler.Proofs.FloatingPoint.Nearest

/-!
Contract: single-precision patterns and the doubles that are narrowed to them.

Owns:
- the numbers that signed patterns of both formats stand for;
- the single-precision pattern nearest to a double, with overflow, gradual underflow and signed
  zeros, as a relation between exact numbers;
- the double with the same number as a pattern.

Does not own: patterns that are no numbers.

A sign is kept, so the pattern nearest to a double is the one nearest to its magnitude. Two even
patterns cannot be equally near to a number, because an odd one between them is nearer.

Main statements: `Double.narrowsTo_iff`, `Double.Widens.narrowsTo` and `Double.exists_widens`.
-/

namespace RiscAssembler

open FloatingPoint

/-- A number with the given sign. -/
def FloatingPoint.signed (negative : Bool) (number : ℚ) : ℚ :=
  if negative then -number else number

/-- The value of a finite double. -/
def Double.value (number : Double) : ℚ :=
  signed number.isNegative (double.value number.magnitude)

namespace Single

/-- The pattern without its sign. -/
def magnitude (pattern : BitVec 32) : Nat :=
  pattern.toNat % 2 ^ 31

def ofMagnitude (negative : Bool) (magnitude : Nat) : BitVec 32 :=
  BitVec.ofBool negative ++ BitVec.ofNat 31 magnitude

/-- The value of a finite pattern. -/
def value (pattern : BitVec 32) : ℚ :=
  signed pattern.msb (single.value (magnitude pattern))

/-- Half a step beyond `(2 ^ 24 - 1) * 2 ^ 104`, the greatest finite number. -/
def overflow : ℚ := (2 ^ 24 - 1) * 2 ^ 104 + 2 ^ 103

end Single

/-- The single-precision pattern nearest to a double that is a number or an infinity. The sign is
kept, also that of a zero. From half a step beyond the greatest finite number on, the pattern is
infinity. Below, no finite pattern is nearer, and if a pattern of another number is as near, this
one is even. -/
inductive Double.NarrowsTo (number : Double) (pattern : BitVec 32) : Prop
  | infinite (sign : pattern.msb = number.isNegative)
      (infinite : number.magnitude = double.infinity)
      (infinity : Single.magnitude pattern = single.infinity)
  | overflow (sign : pattern.msb = number.isNegative)
      (finite : number.magnitude < double.infinity) (beyond : Single.overflow ≤ |number.value|)
      (infinity : Single.magnitude pattern = single.infinity)
  | nearest (sign : pattern.msb = number.isNegative)
      (finite : number.magnitude < double.infinity) (inside : |number.value| < Single.overflow)
      (isFinite : Single.magnitude pattern < single.infinity)
      (nearest : ∀ other, Single.magnitude other < single.infinity →
        |number.value - Single.value pattern| ≤ |number.value - Single.value other|)
      (even : ∀ other, Single.magnitude other < single.infinity →
        |number.value - Single.value other| = |number.value - Single.value pattern| →
          Single.value other = Single.value pattern ∨ Single.magnitude pattern % 2 = 0)

/-- A double is the same number as a single-precision pattern, or the same infinity. -/
inductive Double.Widens (number : Double) (pattern : BitVec 32) : Prop
  | infinite (sign : pattern.msb = number.isNegative)
      (infinite : number.magnitude = double.infinity)
      (infinity : Single.magnitude pattern = single.infinity)
  | finite (sign : pattern.msb = number.isNegative)
      (finite : number.magnitude < double.infinity)
      (isFinite : Single.magnitude pattern < single.infinity)
      (same : number.value = Single.value pattern)

/-! ### The two formats -/

theorem double_wide : 2 ≤ double.precision := by decide

theorem single_wide : 2 ≤ single.precision := by decide

theorem single_infinity_pos : 0 < single.infinity := by decide

theorem single_infinity_lt : single.infinity < 2 ^ 31 := by decide

theorem double_infinity_lt : double.infinity < 2 ^ 63 := by decide

/-- The units of the greatest finite number and of the infinity of single precision. -/
theorem single_overflow : single.overflow = Single.overflow := by
  have greatest : single.units (single.infinity - 1) = (2 ^ 24 - 1) * 2 ^ 253 := by
    decide +kernel
  have next : single.units single.infinity = 2 ^ 24 * 2 ^ 253 := by
    decide +kernel
  have exponent : single.unitExponent = 149 := rfl
  rw [BinaryFormat.overflow, BinaryFormat.value_eq_units single_wide,
    BinaryFormat.value_eq_units single_wide, greatest, next, exponent, Single.overflow]
  norm_num

/-- An infinity of double precision lies far beyond what single precision holds. -/
theorem overflow_le_double_infinity : Single.overflow ≤ double.value double.infinity := by
  have greatest : double.units double.infinity = 2 ^ 1024 * 2 ^ 1074 := by
    decide +kernel
  have exponent : double.unitExponent = 1074 := rfl
  rw [BinaryFormat.value_eq_units double_wide, greatest, exponent, Nat.cast_mul, Nat.cast_pow,
    Nat.cast_pow, Nat.cast_ofNat, mul_div_cancel_right₀ _ (by positivity)]
  have below : Single.overflow ≤ 2 ^ 128 := by
    rw [Single.overflow]
    norm_num
  exact below.trans (pow_le_pow_right₀ (by norm_num) (by norm_num))

/-! ### Signs -/

namespace FloatingPoint

variable {left right : ℚ}

theorem abs_signed (negative : Bool) (nonneg : 0 ≤ left) : |signed negative left| = left := by
  cases negative with
  | false => exact abs_of_nonneg nonneg
  | true => exact (abs_neg left).trans (abs_of_nonneg nonneg)

theorem signed_injective (negative : Bool) : Function.Injective (signed negative) := by
  cases negative with
  | false => exact fun _ _ same => same
  | true => exact neg_injective

theorem abs_signed_sub_signed (negative : Bool) (left right : ℚ) :
    |signed negative left - signed negative right| = |left - right| := by
  cases negative with
  | false => rfl
  | true =>
      have opposite : signed true left - signed true right = -(left - right) := by
        simp only [signed, if_true]
        ring
      rw [opposite, abs_neg]

/-- Numbers of opposite signs are as far apart as their magnitudes together. -/
theorem abs_signed_sub_of_ne {negative other : Bool} (opposite : other ≠ negative)
    (leftNonneg : 0 ≤ left) (rightNonneg : 0 ≤ right) :
    |signed negative left - signed other right| = left + right := by
  have flipped : other = !negative := by
    cases other <;> cases negative <;> simp_all
  have sum : signed negative left - signed other right = signed negative (left + right) := by
    rw [flipped]
    cases negative with
    | false => exact sub_neg_eq_add left right
    | true => exact (neg_add' left right).symm
  rw [sum, abs_signed negative (add_nonneg leftNonneg rightNonneg)]

/-- A change of sign brings no number nearer. -/
theorem abs_sub_le_abs_signed_sub (negative other : Bool) (leftNonneg : 0 ≤ left)
    (rightNonneg : 0 ≤ right) :
    |left - right| ≤ |signed negative left - signed other right| := by
  by_cases same : other = negative
  · rw [same, abs_signed_sub_signed]
  · rw [abs_signed_sub_of_ne same leftNonneg rightNonneg]
    exact abs_le.mpr ⟨by linarith, by linarith⟩

/-- The sign of a pattern that is put together from its sign and its magnitude. -/
theorem msb_ofBool_append {width : Nat} (negative : Bool) (bits : BitVec width) :
    (BitVec.ofBool negative ++ bits).msb = negative := by
  rw [BitVec.msb_append]
  simp

theorem toNat_ofBool_append_mod {width bits : Nat} (negative : Bool) (small : bits < 2 ^ width) :
    (BitVec.ofBool negative ++ BitVec.ofNat width bits).toNat % 2 ^ width = bits := by
  rw [BitVec.toNat_append, BitVec.toNat_ofNat, Nat.mod_eq_of_lt small, Nat.shiftLeft_eq,
    Nat.mul_comm, ← Nat.two_pow_add_eq_or_of_lt small, Nat.mul_add_mod, Nat.mod_eq_of_lt small]

end FloatingPoint

namespace Single

theorem msb_ofMagnitude (negative : Bool) (bits : Nat) :
    (ofMagnitude negative bits).msb = negative :=
  msb_ofBool_append negative _

theorem magnitude_ofMagnitude (negative : Bool) {bits : Nat} (small : bits < 2 ^ 31) :
    magnitude (ofMagnitude negative bits) = bits :=
  toNat_ofBool_append_mod negative small

/-- A pattern is its sign and its magnitude. -/
theorem eq_of_magnitude_eq {left right : BitVec 32} (sign : left.msb = right.msb)
    (same : magnitude left = magnitude right) : left = right := by
  rw [BitVec.msb_eq_decide, BitVec.msb_eq_decide, decide_eq_decide] at sign
  have leftBelow := left.isLt
  have rightBelow := right.isLt
  simp only [magnitude] at same
  apply BitVec.eq_of_toNat_eq
  omega

theorem value_ofMagnitude (negative : Bool) {bits : Nat} (small : bits < 2 ^ 31) :
    value (ofMagnitude negative bits) = signed negative (single.value bits) := by
  rw [value, msb_ofMagnitude, magnitude_ofMagnitude negative small]

/-- No finite magnitude is nearer to a number, and if another one is as near, this one is even. -/
structure IsNearestFinite (exact : ℚ) (bits : Nat) : Prop where
  finite : bits < single.infinity
  nearest : ∀ other < single.infinity,
    |exact - single.value bits| ≤ |exact - single.value other|
  even : ∀ other < single.infinity,
    |exact - single.value other| = |exact - single.value bits| → other = bits ∨ bits % 2 = 0

section IsNearestFinite

variable {exact : ℚ} {left right : Nat}

/-- Of two even magnitudes that are equally near, an odd one in between is nearer. -/
theorem IsNearestFinite.le (leftNearest : IsNearestFinite exact left)
    (rightNearest : IsNearestFinite exact right) : left ≤ right := by
  by_contra greater
  have increasing := BinaryFormat.value_strictMono single_wide
  have leftFinite := leftNearest.finite
  have same : |exact - single.value left| = |exact - single.value right| :=
    le_antisymm (leftNearest.nearest right rightNearest.finite)
      (rightNearest.nearest left leftFinite)
  have leftEven := leftNearest.even right rightNearest.finite same.symm
  have rightEven := rightNearest.even left leftFinite same
  have first : single.value right < single.value (right + 1) := increasing (by omega)
  have second : single.value (right + 1) < single.value left := increasing (by omega)
  have closest := rightNearest.nearest (right + 1) (by omega)
  rcases abs_eq_abs.mp same with equal | opposite
  · linarith
  · have distance : |exact - single.value right| = exact - single.value right :=
      abs_of_nonneg (by linarith)
    have closer : |exact - single.value (right + 1)| < exact - single.value right :=
      abs_lt.mpr ⟨by linarith, by linarith⟩
    linarith

theorem IsNearestFinite.unique (leftNearest : IsNearestFinite exact left)
    (rightNearest : IsNearestFinite exact right) : left = right :=
  Nat.le_antisymm (leftNearest.le rightNearest) (rightNearest.le leftNearest)

end IsNearestFinite

end Single

/-! ### Narrowing -/

namespace Double

variable {number : Double} {pattern : BitVec 32}

theorem value_magnitude_nonneg (number : Double) : 0 ≤ double.value number.magnitude :=
  BinaryFormat.value_nonneg double_wide _

theorem abs_value (number : Double) : |number.value| = double.value number.magnitude :=
  abs_signed number.isNegative number.value_magnitude_nonneg

/-- The value of a double is a quotient of units of single precision, the one that is rounded. -/
theorem value_magnitude_eq (number : Double) :
    double.value number.magnitude = (double.units number.magnitude : ℚ) /
      (2 ^ (double.unitExponent - single.unitExponent) : Nat) / 2 ^ single.unitExponent := by
  have finer : single.unitExponent ≤ double.unitExponent := by
    decide
  rw [BinaryFormat.value_eq_units double_wide, div_div, Nat.cast_pow, Nat.cast_ofNat, ← pow_add,
    Nat.sub_add_cancel finer]

/-- Narrowing keeps the sign and rounds the magnitude to the nearest one. -/
theorem exists_toSingle_eq (ordered : number.magnitude ≤ double.infinity) :
    ∃ bits, single.IsNearest (double.value number.magnitude) bits ∧
      number.toSingle = Single.ofMagnitude number.isNegative (min single.infinity bits) := by
  obtain ⟨bits, isNearest, rounded⟩ := BinaryFormat.exists_isNearest single_wide
    (double.units number.magnitude)
    (Nat.two_pow_pos (double.unitExponent - single.unitExponent))
  refine ⟨bits, ?_, ?_⟩
  · rw [value_magnitude_eq]
    exact isNearest
  · simp only [toSingle, Single.ofMagnitude]
    rw [if_neg (Nat.not_lt.mpr ordered), Nat.pow_eq, rounded]

/-- The distance of a double from a pattern with its sign is that of the magnitudes. -/
theorem abs_value_sub_ofMagnitude (number : Double) {bits : Nat} (small : bits < 2 ^ 31) :
    |number.value - Single.value (Single.ofMagnitude number.isNegative bits)| =
      |double.value number.magnitude - single.value bits| := by
  rw [Single.value_ofMagnitude _ small, value, abs_signed_sub_signed]

theorem abs_sub_le_abs_value_sub (number : Double) (other : BitVec 32) :
    |double.value number.magnitude - single.value (Single.magnitude other)| ≤
      |number.value - Single.value other| :=
  abs_sub_le_abs_signed_sub _ _ number.value_magnitude_nonneg
    (BinaryFormat.value_nonneg single_wide _)

/-- If another pattern is as near as the nearest magnitude, it is the same number or the nearest
magnitude is even. A pattern of the other sign is so only for zeros. -/
theorem even_of_tie {bits : Nat} (isNearest : single.IsNearest (double.value number.magnitude) bits)
    (small : bits < 2 ^ 31) (other : BitVec 32)
    (tie : |number.value - Single.value other| =
      |number.value - Single.value (Single.ofMagnitude number.isNegative bits)|) :
    Single.value other = Single.value (Single.ofMagnitude number.isNegative bits) ∨
      bits % 2 = 0 := by
  rw [abs_value_sub_ofMagnitude number small] at tie
  by_cases same : other.msb = number.isNegative
  · have magnitudes : |double.value number.magnitude - single.value (Single.magnitude other)| =
        |double.value number.magnitude - single.value bits| := by
      rw [← tie, Single.value, value, same, abs_signed_sub_signed]
    apply (isNearest.even _ magnitudes).imp_left
    intro equal
    rw [Single.value_ofMagnitude _ small, Single.value, same, equal]
  · have otherNonneg := BinaryFormat.value_nonneg single_wide (Single.magnitude other)
    have nonneg := number.value_magnitude_nonneg
    have apart : |number.value - Single.value other| =
        double.value number.magnitude + single.value (Single.magnitude other) :=
      abs_signed_sub_of_ne same nonneg otherNonneg
    have zero : |double.value number.magnitude - single.value 0| =
        double.value number.magnitude := by
      rw [BinaryFormat.value_zero, sub_zero, abs_of_nonneg nonneg]
    -- zero is no farther than the other pattern, so it is as near as the nearest magnitude
    have closest := isNearest.nearest 0
    have tieWithZero : |double.value number.magnitude - single.value 0| =
        |double.value number.magnitude - single.value bits| := by
      linarith
    right
    rcases isNearest.even 0 tieWithZero with isZero | even
    · rw [← isZero]
    · exact even

theorem toSingle_of_overflow (ordered : number.magnitude ≤ double.infinity)
    (beyond : Single.overflow ≤ double.value number.magnitude) :
    number.toSingle = Single.ofMagnitude number.isNegative single.infinity := by
  obtain ⟨bits, isNearest, narrowed⟩ := exists_toSingle_eq ordered
  have large : single.infinity ≤ bits :=
    (isNearest.infinity_le_iff single_wide single_infinity_pos).mpr (by rwa [single_overflow])
  rw [narrowed, min_eq_left large]

/-- Every double that is a number or an infinity is narrowed to its nearest pattern. -/
theorem narrowsTo_toSingle (ordered : number.magnitude ≤ double.infinity) :
    number.NarrowsTo number.toSingle := by
  by_cases beyond : Single.overflow ≤ double.value number.magnitude
  · rw [toSingle_of_overflow ordered beyond]
    have sign := Single.msb_ofMagnitude number.isNegative single.infinity
    have infinity := Single.magnitude_ofMagnitude number.isNegative single_infinity_lt
    by_cases infinite : number.magnitude = double.infinity
    · exact .infinite sign infinite infinity
    · exact .overflow sign (by omega) (by rwa [abs_value]) infinity
  · obtain ⟨bits, isNearest, narrowed⟩ := exists_toSingle_eq ordered
    have finite : bits < single.infinity := by
      rw [← Nat.not_le, isNearest.infinity_le_iff single_wide single_infinity_pos, single_overflow]
      exact beyond
    have small : bits < 2 ^ 31 := finite.trans single_infinity_lt
    have magnitude := Single.magnitude_ofMagnitude number.isNegative small
    rw [narrowed, min_eq_right finite.le]
    apply NarrowsTo.nearest
    · exact Single.msb_ofMagnitude _ _
    · apply lt_of_le_of_ne ordered
      intro infinite
      rw [infinite] at beyond
      exact beyond overflow_le_double_infinity
    · rw [abs_value]
      exact not_le.mp beyond
    · rw [magnitude]
      exact finite
    · intro other _
      rw [abs_value_sub_ofMagnitude number small]
      exact (isNearest.nearest _).trans (abs_sub_le_abs_value_sub number other)
    · intro other _ tie
      rw [magnitude]
      exact even_of_tie isNearest small other tie

/-- The nearest of all patterns has the nearest of all magnitudes. -/
theorem isNearestFinite_magnitude {nearest : BitVec 32} (sign : nearest.msb = number.isNegative)
    (isFinite : Single.magnitude nearest < single.infinity)
    (closest : ∀ other, Single.magnitude other < single.infinity →
      |number.value - Single.value nearest| ≤ |number.value - Single.value other|)
    (even : ∀ other, Single.magnitude other < single.infinity →
      |number.value - Single.value other| = |number.value - Single.value nearest| →
        Single.value other = Single.value nearest ∨ Single.magnitude nearest % 2 = 0) :
    Single.IsNearestFinite (double.value number.magnitude) (Single.magnitude nearest) := by
  have distance : |number.value - Single.value nearest| =
      |double.value number.magnitude - single.value (Single.magnitude nearest)| := by
    rw [value, Single.value, sign, abs_signed_sub_signed]
  rw [distance] at closest even
  refine ⟨isFinite, ?_, ?_⟩
  · intro bits finite
    have small := finite.trans single_infinity_lt
    rw [← abs_value_sub_ofMagnitude number small]
    exact closest _ (by rwa [Single.magnitude_ofMagnitude _ small])
  · intro bits finite tie
    have small := finite.trans single_infinity_lt
    rw [← abs_value_sub_ofMagnitude number small] at tie
    apply (even _ (by rwa [Single.magnitude_ofMagnitude _ small]) tie).imp_left
    intro same
    rw [Single.value_ofMagnitude _ small, Single.value, sign] at same
    exact (BinaryFormat.value_strictMono single_wide).injective (signed_injective _ same)

/-- A double has one nearest pattern. -/
theorem NarrowsTo.unique {other : BitVec 32} (narrows : number.NarrowsTo pattern)
    (narrowsOther : number.NarrowsTo other) : pattern = other := by
  cases narrows with
  | infinite sign infinite infinity =>
      cases narrowsOther with
      | infinite otherSign _ otherInfinity =>
          exact Single.eq_of_magnitude_eq (sign.trans otherSign.symm)
            (infinity.trans otherInfinity.symm)
      | overflow _ finite => omega
      | nearest _ finite => omega
  | overflow sign finite beyond infinity =>
      cases narrowsOther with
      | infinite _ infinite => omega
      | overflow otherSign _ _ otherInfinity =>
          exact Single.eq_of_magnitude_eq (sign.trans otherSign.symm)
            (infinity.trans otherInfinity.symm)
      | nearest _ _ inside => exact absurd beyond (not_le.mpr inside)
  | nearest sign finite inside isFinite closest even =>
      cases narrowsOther with
      | infinite _ infinite => omega
      | overflow _ _ beyond => exact absurd beyond (not_le.mpr inside)
      | nearest otherSign _ _ otherFinite otherClosest otherEven =>
          have isNearest := isNearestFinite_magnitude sign isFinite closest even
          have otherNearest :=
            isNearestFinite_magnitude otherSign otherFinite otherClosest otherEven
          exact Single.eq_of_magnitude_eq (sign.trans otherSign.symm)
            (isNearest.unique otherNearest)

/-- Narrowing computes the nearest pattern. -/
theorem narrowsTo_iff (ordered : number.magnitude ≤ double.infinity) :
    number.NarrowsTo pattern ↔ pattern = number.toSingle := by
  constructor
  · intro narrows
    exact narrows.unique (narrowsTo_toSingle ordered)
  · intro same
    rw [same]
    exact narrowsTo_toSingle ordered

-- a tie just below two: the odd pattern below is as near, and the carry reaches the exponent
example : (⟨0x3FFFFFFFF0000000#64⟩ : Double).toSingle = 0x40000000#32 := by decide +kernel

/-! ### Widening -/

theorem single_value_lt_overflow {bits : Nat} (finite : bits < single.infinity) :
    single.value bits < Single.overflow := by
  have increasing := BinaryFormat.value_strictMono single_wide
  have greatest : single.value bits ≤ single.value (single.infinity - 1) :=
    increasing.monotone (by omega)
  have step : single.value (single.infinity - 1) < single.value single.infinity :=
    increasing (by decide)
  rw [← single_overflow, BinaryFormat.overflow]
  linarith

theorem Widens.ordered (widens : number.Widens pattern) : number.magnitude ≤ double.infinity := by
  cases widens with
  | infinite _ infinite => exact infinite.le
  | finite _ finite => exact finite.le

/-- A pattern is the nearest one to the double of the same value. -/
theorem Widens.narrowsTo (widens : number.Widens pattern) : number.NarrowsTo pattern := by
  cases widens with
  | infinite sign infinite infinity => exact .infinite sign infinite infinity
  | finite sign finite isFinite same =>
      have distance : |number.value - Single.value pattern| = 0 := by
        rw [same, sub_self, abs_zero]
      apply NarrowsTo.nearest sign finite _ isFinite
      · intro other _
        rw [distance]
        exact abs_nonneg _
      · intro other _ tie
        rw [distance, abs_eq_zero, sub_eq_zero] at tie
        exact .inl (tie.symm.trans same)
      · rw [same, Single.value, abs_signed _ (BinaryFormat.value_nonneg single_wide _)]
        exact single_value_lt_overflow isFinite

/-- Single precision has fewer significant bits than double precision, and its units are multiples
of those of double precision. -/
theorem exists_double_value_eq (bits : Nat) :
    ∃ magnitude, double.value magnitude = single.value bits := by
  obtain ⟨shift, significand, whole, normal, small⟩ := single.exists_grid bits
  have binades : 2 * single.binade ≤ 2 * double.binade := by
    decide
  have finer : single.unitExponent ≤ double.unitExponent := by
    decide
  obtain ⟨magnitude, units⟩ := double.exists_units_eq (small.trans_le binades)
    (shift + (double.unitExponent - single.unitExponent))
  refine ⟨magnitude, ?_⟩
  rw [BinaryFormat.value_eq_units double_wide, BinaryFormat.value_eq_units single_wide, whole,
    BinaryFormat.units_grid normal small.le, units]
  have exponents : (2 : ℚ) ^ double.unitExponent =
      2 ^ (double.unitExponent - single.unitExponent) * 2 ^ single.unitExponent := by
    rw [← pow_add, Nat.sub_add_cancel finer]
  rw [exponents, pow_add]
  push_cast
  field_simp

theorem isNegative_ofMagnitude (negative : Bool) (bits : Nat) :
    (ofMagnitude negative bits).isNegative = negative :=
  msb_ofBool_append negative _

theorem magnitude_ofMagnitude (negative : Bool) {bits : Nat} (small : bits < 2 ^ 63) :
    (ofMagnitude negative bits).magnitude = bits :=
  toNat_ofBool_append_mod negative small

/-- Every pattern that is a number or an infinity is the same number as a double. -/
theorem exists_widens (ordered : Single.magnitude pattern ≤ single.infinity) :
    ∃ number : Double, number.Widens pattern := by
  by_cases infinite : Single.magnitude pattern = single.infinity
  · exact ⟨ofMagnitude pattern.msb double.infinity,
      .infinite (isNegative_ofMagnitude _ _).symm
        (magnitude_ofMagnitude _ double_infinity_lt) infinite⟩
  · have finite : Single.magnitude pattern < single.infinity := by
      omega
    obtain ⟨magnitude, same⟩ := exists_double_value_eq (Single.magnitude pattern)
    have small : magnitude < double.infinity := by
      apply (BinaryFormat.value_strictMono double_wide).lt_iff_lt.mp
      rw [same]
      exact (single_value_lt_overflow finite).trans_le overflow_le_double_infinity
    have restored := magnitude_ofMagnitude pattern.msb (small.trans double_infinity_lt)
    refine ⟨ofMagnitude pattern.msb magnitude, .finite (isNegative_ofMagnitude _ _).symm ?_ finite
      ?_⟩
    · rw [restored]
      exact small
    · rw [value, isNegative_ofMagnitude, restored, same, Single.value]

end Double

end RiscAssembler
