import RiscAssembler.Proofs.FloatingPoint.Value

/-!
Contract: rounding finds the nearest magnitude, ties to the even pattern.

Owns:
- the magnitude nearest to a number, when exponents are not bounded;
- the number from which on rounding leaves the finite magnitudes;
- the magnitude that a quotient is rounded to.

Does not own: signs and infinities.

Magnitudes are numbered in the order of their values, also beyond infinity, where they go on as if
there were more exponents. So a number lies between two neighbours, and only these two can be
nearest to it. Infinity takes the place of the number that would follow the greatest finite one.

Main statements: `exists_isNearest` and `IsNearest.infinity_le_iff`.
-/

namespace RiscAssembler.FloatingPoint

theorem roundedQuotient_cases (numerator denominator : Nat) :
    roundedQuotient numerator denominator = numerator / denominator ∧
        2 * (numerator % denominator) ≤ denominator ∨
      roundedQuotient numerator denominator = numerator / denominator + 1 ∧
        denominator ≤ 2 * (numerator % denominator) := by
  simp only [roundedQuotient]
  split
  · omega
  · split
    · omega
    · have parity := Nat.mod_two_eq_zero_or_one (numerator / denominator)
      omega

theorem roundedQuotient_even {numerator denominator : Nat}
    (tie : 2 * (numerator % denominator) = denominator) :
    roundedQuotient numerator denominator % 2 = 0 := by
  simp only [roundedQuotient]
  rw [if_neg (by omega), if_neg (by omega)]
  omega

namespace BinaryFormat

/-- No magnitude is nearer to a number, and if another one is as near, the pattern is even. The
magnitudes beyond infinity count as the finite numbers that they would be in a format with more
exponents. -/
structure IsNearest (format : BinaryFormat) (exact : ℚ) (magnitude : Nat) : Prop where
  nearest : ∀ other, |exact - format.value magnitude| ≤ |exact - format.value other|
  even : ∀ other, |exact - format.value other| = |exact - format.value magnitude| →
    other = magnitude ∨ magnitude % 2 = 0

/-- Half a step beyond the greatest finite magnitude. -/
def overflow (format : BinaryFormat) : ℚ :=
  (format.value (format.infinity - 1) + format.value format.infinity) / 2

variable {format : BinaryFormat}

theorem binade_even (wide : 2 ≤ format.precision) : format.binade % 2 = 0 := by
  have doubled : format.binade = 2 ^ (format.precision - 2) * 2 := by
    rw [binade, Nat.pow_eq, ← Nat.pow_succ]
    congr 1
    omega
  omega

section Neighbours

variable {magnitude : Nat} {exact : ℚ}

/-- Of the two neighbours of a number, the nearer one is the nearest magnitude of all. -/
theorem isNearest_of_neighbours (low : Nat) (wide : 2 ≤ format.precision)
    (lower : format.value low ≤ exact) (upper : exact ≤ format.value (low + 1))
    (neighbour : magnitude = low ∧ exact - format.value low ≤ format.value (low + 1) - exact ∨
      magnitude = low + 1 ∧ format.value (low + 1) - exact ≤ exact - format.value low)
    (even : exact - format.value low = format.value (low + 1) - exact → magnitude % 2 = 0) :
    format.IsNearest exact magnitude := by
  have increasing := value_strictMono wide
  -- all other magnitudes lie behind one of the two neighbours
  have below : ∀ other ≤ low, exact - format.value low ≤ |exact - format.value other| ∧
      (|exact - format.value other| = exact - format.value low → other = low) := by
    intro other le
    have order := increasing.monotone le
    rw [abs_of_nonneg (by linarith)]
    refine ⟨by linarith, fun same => increasing.injective (by linarith)⟩
  have above : ∀ other, low + 1 ≤ other →
      format.value (low + 1) - exact ≤ |exact - format.value other| ∧
        (|exact - format.value other| = format.value (low + 1) - exact → other = low + 1) := by
    intro other le
    have order := increasing.monotone le
    rw [abs_of_nonpos (by linarith)]
    refine ⟨by linarith, fun same => increasing.injective (by linarith)⟩
  have distance : |exact - format.value magnitude| =
      min (exact - format.value low) (format.value (low + 1) - exact) := by
    rcases neighbour with ⟨rfl, closer⟩ | ⟨rfl, closer⟩
    · rw [abs_of_nonneg (by linarith), min_eq_left closer]
    · rw [abs_of_nonpos (by linarith), min_eq_right closer]
      ring
  constructor
  · intro other
    rw [distance]
    rcases Nat.lt_or_ge low other with behind | before
    · exact (min_le_right _ _).trans (above other behind).1
    · exact (min_le_left _ _).trans (below other before).1
  · intro other tie
    rw [distance] at tie
    rcases Nat.lt_or_ge low other with behind | before
    · have far := (above other behind).1
      rcases neighbour with ⟨rfl, closer⟩ | ⟨rfl, closer⟩
      · rw [min_eq_left closer] at tie
        exact .inr (even (by linarith))
      · rw [min_eq_right closer] at tie
        exact .inl ((above other behind).2 tie)
    · have far := (below other before).1
      rcases neighbour with ⟨rfl, closer⟩ | ⟨rfl, closer⟩
      · rw [min_eq_left closer] at tie
        exact .inl ((below other before).2 tie)
      · rw [min_eq_right closer] at tie
        exact .inr (even (by linarith))

end Neighbours

/-! ### Rounding a quotient -/

/-- The shift that rounding chooses keeps the significand within the precision of the format. -/
theorem shift_fits (format : BinaryFormat) (quotient : Nat) :
    (quotient.log2 - (format.precision - 1) = 0 ∨
        format.binade ≤ quotient / 2 ^ (quotient.log2 - (format.precision - 1))) ∧
      quotient / 2 ^ (quotient.log2 - (format.precision - 1)) < 2 * format.binade := by
  have twice : 2 * format.binade = 2 ^ (format.precision - 1 + 1) := by
    rw [binade, Nat.pow_eq, Nat.pow_succ, Nat.mul_comm]
  have upper : quotient < 2 ^ (quotient.log2 + 1) := Nat.lt_log2_self
  constructor
  · by_cases noShift : quotient.log2 - (format.precision - 1) = 0
    · exact .inl noShift
    · have positive : quotient ≠ 0 := by
        intro zero
        rw [zero, Nat.log2_zero] at noShift
        omega
      have lower : 2 ^ quotient.log2 ≤ quotient := Nat.log2_self_le positive
      right
      rw [Nat.le_div_iff_mul_le (Nat.two_pow_pos _), binade, Nat.pow_eq, ← Nat.pow_add]
      have whole : format.precision - 1 + (quotient.log2 - (format.precision - 1)) =
          quotient.log2 := by
        omega
      rw [whole]
      exact lower
  · rw [Nat.div_lt_iff_lt_mul (Nat.two_pow_pos _), twice, ← Nat.pow_add]
    exact Nat.lt_of_lt_of_le upper (Nat.pow_le_pow_right (by decide) (by omega))

section Quotient

variable {shift significand denominator : Nat}

/-- How far a quotient lies above the magnitude below it, and below the magnitude above it. -/
theorem distances (rest : Nat) (wide : 2 ≤ format.precision) (positive : 0 < denominator)
    (normal : shift = 0 ∨ format.binade ≤ significand) (small : significand < 2 * format.binade) :
    let exact : ℚ := ((denominator * 2 ^ shift * significand + rest : Nat) : ℚ) / denominator /
      2 ^ format.unitExponent
    let step : ℚ := 1 / (denominator * 2 ^ format.unitExponent)
    exact - format.value (shift * format.binade + significand) = rest * step ∧
      format.value (shift * format.binade + significand + 1) - exact =
        (denominator * 2 ^ shift - rest) * step := by
  have nextNormal : shift = 0 ∨ format.binade ≤ significand + 1 := by
    omega
  have nonzero : (denominator : ℚ) ≠ 0 := by
    exact_mod_cast positive.ne'
  intro exact step
  simp only [exact, step]
  constructor
  · rw [value_eq_units wide, units_grid normal (Nat.le_of_lt small)]
    push_cast
    field_simp
    ring
  · rw [value_eq_units wide, Nat.add_assoc, units_grid nextNormal small]
    push_cast
    field_simp
    ring

end Quotient

/-- A quotient of units is rounded to its nearest magnitude, or to infinity if that comes first. -/
theorem exists_isNearest (wide : 2 ≤ format.precision) (numerator : Nat) {denominator : Nat}
    (positive : 0 < denominator) :
    ∃ magnitude,
      format.IsNearest (numerator / denominator / 2 ^ format.unitExponent) magnitude ∧
        format.round numerator denominator = min format.infinity magnitude := by
  obtain ⟨normal, small⟩ := format.shift_fits (numerator / denominator)
  simp only [round, Nat.pow_eq]
  generalize (numerator / denominator).log2 - (format.precision - 1) = shift at normal small ⊢
  rw [Nat.div_div_eq_div_mul] at normal small
  have cases := roundedQuotient_cases numerator (denominator * 2 ^ shift)
  have even := @roundedQuotient_even numerator (denominator * 2 ^ shift)
  have whole := Nat.div_add_mod numerator (denominator * 2 ^ shift)
  have remainder := Nat.mod_lt numerator (Nat.mul_pos positive (Nat.two_pow_pos shift))
  obtain ⟨below, above⟩ := distances (numerator % (denominator * 2 ^ shift)) wide positive normal
    small
  rw [whole] at below above
  generalize numerator / (denominator * 2 ^ shift) = significand at *
  generalize numerator % (denominator * 2 ^ shift) = rest at *
  generalize roundedQuotient numerator (denominator * 2 ^ shift) = rounded at *
  have stepPositive : (0 : ℚ) < 1 / (denominator * 2 ^ format.unitExponent) := by
    positivity
  generalize (1 : ℚ) / (denominator * 2 ^ format.unitExponent) = step at *
  have restNonneg : (0 : ℚ) ≤ rest := by
    positivity
  have restBelow : (rest : ℚ) ≤ denominator * 2 ^ shift := by
    exact_mod_cast remainder.le
  refine ⟨shift * format.binade + rounded, ?_, rfl⟩
  have lower : 0 ≤ rest * step := by
    positivity
  have upper : 0 ≤ (denominator * 2 ^ shift - rest) * step :=
    mul_nonneg (by linarith) stepPositive.le
  apply isNearest_of_neighbours (shift * format.binade + significand) wide
  · linarith
  · linarith
  · rw [below, above]
    rcases cases with ⟨down, closer⟩ | ⟨up, closer⟩
    · have half : (2 : ℚ) * rest ≤ denominator * 2 ^ shift := by
        exact_mod_cast closer
      refine .inl ⟨by rw [down], ?_⟩
      exact mul_le_mul_of_nonneg_right (by linarith) stepPositive.le
    · have half : (denominator : ℚ) * 2 ^ shift ≤ 2 * rest := by
        exact_mod_cast closer
      refine .inr ⟨by rw [up, Nat.add_assoc], ?_⟩
      exact mul_le_mul_of_nonneg_right (by linarith) stepPositive.le
  · intro tie
    rw [below, above] at tie
    have half : (2 : ℚ) * rest = denominator * 2 ^ shift := by
      have same := mul_right_cancel₀ stepPositive.ne' tie
      linarith
    have isEven := even (by exact_mod_cast half)
    have binade := binade_even wide
    rw [Nat.add_mod, Nat.mul_mod, binade, isEven, Nat.mul_zero]

/-! ### Overflow -/

theorem infinity_even (wide : 2 ≤ format.precision) : format.infinity % 2 = 0 := by
  rw [infinity, Nat.mul_mod, binade_even wide, Nat.mul_zero]

/-- A number is nearest to infinity, or to a magnitude that would follow it, exactly from half a
step beyond the greatest finite magnitude on. -/
theorem IsNearest.infinity_le_iff (wide : 2 ≤ format.precision) (positive : 0 < format.infinity)
    {exact : ℚ} {magnitude : Nat} (isNearest : format.IsNearest exact magnitude) :
    format.infinity ≤ magnitude ↔ format.overflow ≤ exact := by
  have increasing := value_strictMono wide
  have step : format.value (format.infinity - 1) < format.value format.infinity :=
    increasing (by omega)
  constructor
  · intro le
    by_contra below
    have order := increasing.monotone le
    have closest := isNearest.nearest (format.infinity - 1)
    rw [not_le, overflow] at below
    have closer : |exact - format.value (format.infinity - 1)| < format.value magnitude - exact :=
      abs_lt.mpr ⟨by linarith, by linarith⟩
    have distance := neg_le_abs (exact - format.value magnitude)
    linarith
  · intro beyond
    by_contra finite
    have order : format.value magnitude ≤ format.value (format.infinity - 1) :=
      increasing.monotone (by omega)
    rw [overflow] at beyond
    have distance : |exact - format.value magnitude| = exact - format.value magnitude :=
      abs_of_nonneg (by linarith)
    have closest := isNearest.nearest format.infinity
    have closer : |exact - format.value format.infinity| ≤ exact - format.value magnitude :=
      abs_le.mpr ⟨by linarith, by linarith⟩
    -- so infinity is as near, which leaves only the odd magnitude just below it
    have tie : |exact - format.value format.infinity| = |exact - format.value magnitude| := by
      linarith
    have greatest : magnitude = format.infinity - 1 := by
      apply increasing.injective
      rcases abs_eq_abs.mp tie with same | opposite
      · linarith
      · linarith
    have parity := infinity_even wide
    rcases isNearest.even format.infinity tie with same | even
    · omega
    · omega

end BinaryFormat

end RiscAssembler.FloatingPoint
