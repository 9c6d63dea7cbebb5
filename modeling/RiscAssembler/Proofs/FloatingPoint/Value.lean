import Mathlib.Algebra.Order.Field.Basic
import Mathlib.Data.Rat.Cast.Order
import Mathlib.Order.Monotone.Basic
import Mathlib.Tactic.FieldSimp
import Mathlib.Tactic.Linarith
import Mathlib.Tactic.Ring
import RiscAssembler.FloatingPoint.Double

/-!
Contract: the numbers that floating-point patterns stand for.

Owns:
- the value of a magnitude, told from its exponent and its fraction;
- the same value as a count of units of the least subnormal;
- the order of the magnitudes, which is the order of their values;
- the numbers with few significant bits, each of which is the value of a magnitude.

A magnitude is `shift` binades and a significand. Within the binades that it reaches, the next
magnitude is one significand further, so two neighbours lie `2 ^ shift` units apart.

Main statements: `value_eq_units`, `units_strictMono` and `exists_units_eq`.
-/

namespace RiscAssembler.FloatingPoint.BinaryFormat

/-- What is taken off the exponent field of a pattern. -/
def bias (format : BinaryFormat) : Nat :=
  2 ^ (format.exponentBits - 1) - 1

/-- The value of a finite magnitude. Its lowest bits are a fraction of the significand and the bits
above them an exponent. The lowest exponent marks the subnormal numbers, which have no leading
one and share the exponent of the least normal numbers. -/
def value (format : BinaryFormat) (magnitude : Nat) : ℚ :=
  let exponent := magnitude / format.binade
  let fraction : ℚ := (magnitude % format.binade : Nat) / (format.binade : ℚ)
  if exponent = 0 then fraction * 2 ^ (1 - (format.bias : ℤ))
  else (1 + fraction) * 2 ^ ((exponent : ℤ) - format.bias)

variable {format : BinaryFormat}

theorem binade_pos (format : BinaryFormat) : 0 < format.binade :=
  Nat.pow_pos (by decide)

/-! ### Units -/

theorem units_normal {exponent fraction : Nat} (small : fraction < format.binade) :
    format.units ((exponent + 1) * format.binade + fraction) =
      (format.binade + fraction) * 2 ^ exponent := by
  have positive := format.binade_pos
  have quotient : ((exponent + 1) * format.binade + fraction) / format.binade = exponent + 1 := by
    rw [Nat.mul_comm, Nat.mul_add_div positive, Nat.div_eq_of_lt small, Nat.add_zero]
  have remainder : ((exponent + 1) * format.binade + fraction) % format.binade = fraction := by
    rw [Nat.mul_comm, Nat.mul_add_mod, Nat.mod_eq_of_lt small]
  have normal : ¬ (exponent + 1) * format.binade + fraction < format.binade := by
    rw [Nat.succ_mul]
    omega
  rw [units, if_neg normal, quotient, remainder, Nat.add_sub_cancel, Nat.pow_eq]

/-- Up to twice a binade, significands count steps of the same width. -/
theorem units_grid {shift significand : Nat} (normal : shift = 0 ∨ format.binade ≤ significand)
    (small : significand ≤ 2 * format.binade) :
    format.units (shift * format.binade + significand) = significand * 2 ^ shift := by
  by_cases subnormal : significand < format.binade
  · have noShift : shift = 0 := normal.resolve_right (Nat.not_le.mpr subnormal)
    rw [noShift, Nat.zero_mul, Nat.zero_add, units, if_pos subnormal, Nat.pow_zero, Nat.mul_one]
  · by_cases top : significand = 2 * format.binade
    · have next : shift * format.binade + significand =
          (shift + 1 + 1) * format.binade + 0 := by
        rw [top]
        ring
      rw [next, units_normal format.binade_pos, top, Nat.pow_succ]
      ring
    · have next : shift * format.binade + significand =
          (shift + 1) * format.binade + (significand - format.binade) := by
        rw [Nat.succ_mul]
        omega
      have whole : format.binade + (significand - format.binade) = significand := by
        omega
      rw [next, units_normal (by omega), whole]

theorem exists_grid (format : BinaryFormat) (magnitude : Nat) :
    ∃ shift significand, magnitude = shift * format.binade + significand ∧
      (shift = 0 ∨ format.binade ≤ significand) ∧ significand < 2 * format.binade := by
  by_cases subnormal : magnitude < format.binade
  · refine ⟨0, magnitude, ?_, .inl rfl, ?_⟩
    · rw [Nat.zero_mul, Nat.zero_add]
    · omega
  · have positive := format.binade_pos
    have normal : 1 ≤ magnitude / format.binade :=
      (Nat.one_le_div_iff positive).mpr (Nat.not_lt.mp subnormal)
    have remainder := Nat.mod_lt magnitude positive
    have whole := Nat.div_add_mod' magnitude format.binade
    refine ⟨magnitude / format.binade - 1, format.binade + magnitude % format.binade, ?_,
      .inr (Nat.le_add_right _ _), by omega⟩
    have peeled : (magnitude / format.binade - 1) * format.binade + format.binade =
        magnitude / format.binade * format.binade := by
      rw [← Nat.succ_mul]
      congr 1
      omega
    omega

theorem units_lt_succ (format : BinaryFormat) (magnitude : Nat) :
    format.units magnitude < format.units (magnitude + 1) := by
  obtain ⟨shift, significand, rfl, normal, small⟩ := format.exists_grid magnitude
  have nextNormal : shift = 0 ∨ format.binade ≤ significand + 1 := by
    omega
  rw [units_grid normal (Nat.le_of_lt small), Nat.add_assoc, units_grid nextNormal small]
  exact Nat.mul_lt_mul_of_pos_right (Nat.lt_succ_self significand) (Nat.two_pow_pos shift)

/-- The order of the magnitudes is the order of their values. -/
theorem units_strictMono (format : BinaryFormat) : StrictMono format.units :=
  strictMono_nat_of_lt_succ format.units_lt_succ

/-- A number that has no more significant bits than the format is the value of a magnitude. -/
theorem exists_units_eq {significand : Nat} (small : significand < 2 * format.binade)
    (shift : Nat) : ∃ magnitude, format.units magnitude = significand * 2 ^ shift := by
  induction shift generalizing significand with
  | zero => exact ⟨0 * format.binade + significand, units_grid (.inl rfl) (Nat.le_of_lt small)⟩
  | succ shift inductionHypothesis =>
      by_cases normal : format.binade ≤ significand
      · exact ⟨_, units_grid (.inr normal) (Nat.le_of_lt small)⟩
      · have doubled : 2 * significand < 2 * format.binade := by
          omega
        obtain ⟨magnitude, found⟩ := inductionHypothesis doubled
        refine ⟨magnitude, ?_⟩
        rw [found, Nat.pow_succ]
        ring

/-! ### Values -/

theorem natCast_binade (format : BinaryFormat) :
    (format.binade : ℚ) = 2 ^ (format.precision - 1) := by
  rw [binade, Nat.pow_eq, Nat.cast_pow, Nat.cast_ofNat]

/-- The exponent of the least normal numbers, in units. -/
theorem leastNormal_eq (wide : 2 ≤ format.precision) :
    (2 : ℚ) ^ (1 - (format.bias : ℤ)) = format.binade / 2 ^ format.unitExponent := by
  have half : 1 ≤ 2 ^ (format.exponentBits - 1) := Nat.one_le_two_pow
  have exponents : 1 - (format.bias : ℤ) =
      ((format.precision - 1 : Nat) : ℤ) - (format.unitExponent : ℤ) := by
    unfold bias unitExponent
    rw [Nat.pow_eq]
    omega
  rw [exponents, zpow_sub₀ (by norm_num), zpow_natCast, zpow_natCast, natCast_binade]

/-- The value of a magnitude is its number of units of the least subnormal. -/
theorem value_eq_units (wide : 2 ≤ format.precision) (magnitude : Nat) :
    format.value magnitude = format.units magnitude / 2 ^ format.unitExponent := by
  have positive : (0 : ℚ) < format.binade := by
    exact_mod_cast format.binade_pos
  simp only [value, units]
  by_cases subnormal : magnitude < format.binade
  · rw [if_pos (Nat.div_eq_of_lt subnormal), if_pos subnormal, leastNormal_eq wide,
      Nat.mod_eq_of_lt subnormal]
    field_simp
  · have normal : 1 ≤ magnitude / format.binade :=
      (Nat.one_le_div_iff format.binade_pos).mpr (Nat.not_lt.mp subnormal)
    have exponents : ((magnitude / format.binade : Nat) : ℤ) - format.bias =
        ((magnitude / format.binade - 1 : Nat) : ℤ) + (1 - (format.bias : ℤ)) := by
      omega
    rw [if_neg (by omega), if_neg subnormal, exponents, zpow_add₀ (by norm_num), zpow_natCast,
      leastNormal_eq wide, Nat.pow_eq]
    push_cast
    field_simp

theorem value_nonneg (wide : 2 ≤ format.precision) (magnitude : Nat) :
    0 ≤ format.value magnitude := by
  rw [value_eq_units wide]
  positivity

@[simp]
theorem value_zero (format : BinaryFormat) : format.value 0 = 0 := by
  simp [value]

theorem value_strictMono (wide : 2 ≤ format.precision) : StrictMono format.value := by
  intro left right less
  rw [value_eq_units wide, value_eq_units wide]
  have units : (format.units left : ℚ) < format.units right := by
    exact_mod_cast format.units_strictMono less
  exact div_lt_div_of_pos_right units (by positivity)

end RiscAssembler.FloatingPoint.BinaryFormat
