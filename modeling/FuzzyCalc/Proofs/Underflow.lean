import FuzzyCalc.Proofs.Exactness
import FuzzyCalc.Proofs.OperatorValues

/-!
# Results close to zero

No result is lost to zero. Close to zero a number may have fewer digits than the precision, and an
exact result that needs no more than these comes out as it is; any other is refused, and the
complaint names the underflow. So a result is zero only where the exact one is: sums of zeros,
differences of equal numbers, products with a zero, and so on.

An average is computed in two steps, and this holds of each of them. As one operation it is not as
strict: if the sum is in the range of full digits, it is rounded without complaint, and half of it
can be exact where half of the exact sum would not be.
-/

namespace FuzzyCalc

open FiniteDecimal

namespace Precision

variable {p : Precision} {g r s : ℚ}

/-- Below the range of full digits what has the digits of the precision has them twice as well. -/
theorem Represents.double (h : p.Represents g) (nonneg : 0 ≤ g) (small : g < 10 ^ minExponent) :
    p.Represents (2 * g) := by
  obtain ⟨c, e, -, he, rfl⟩ := h
  obtain ⟨n, hn⟩ := exists_multiple he c
  have twice : 2 * ((c : ℚ) * 10 ^ e) = (2 * n : ℤ) * 10 ^ p.leastExponent := by
    rw [hn]
    push_cast
    ring
  have digits : p.leastExponent + p.digits = minExponent + 1 := by
    unfold leastExponent
    omega
  rw [twice]
  apply represents_mul le_rfl
  · rw [← twice]
    linarith
  · rw [← twice, digits, tenPow_add, zpow_one]
    linarith

/-- The average of two values is exact if it is below the range of full digits and needs no more
digits than there are. -/
theorem averageValue_eq (nonneg : 0 ≤ (r + s) / 2) (small : (r + s) / 2 < 10 ^ minExponent)
    (h : p.Represents ((r + s) / 2)) : p.averageValue r s = .ok ((r + s) / 2) := by
  have range : 2 * (10 : ℚ) ^ minExponent < 10 ^ (maxExponent + 1) := by
    have higher : (10 : ℚ) ^ (minExponent + 1) ≤ 10 ^ (maxExponent + 1) := tenPow_le (by decide)
    have unit := tenPow_pos minExponent
    rw [tenPow_add, zpow_one] at higher
    linarith
  have sum := h.double nonneg small
  rw [mul_div_cancel₀ _ two_ne_zero] at sum
  rw [averageValue, sum.roundValue_eq (by linarith) (by linarith)]
  exact h.roundValue_eq nonneg (by linarith [tenPow_pos minExponent])

end Precision

/-! ### Outcomes close to zero -/

/-- An outcome shows an exact result that is not below zero: it comes out as zero only if it is, and
that is if `vanishes`. It comes out as it is if it needs no more digits than there are. Below the
range of full digits it is refused otherwise, because digits would be lost. -/
structure Precision.FaithfulNearZero (p : Precision) (exact : ℚ) (vanishes : Prop)
    (outcome : Except Cause Decimal) : Prop where
  /-- Nothing else comes out as zero. -/
  isZero_iff {v : Decimal} : outcome = .ok v → (v.isZero = true ↔ vanishes)
  /-- What has the digits of the precision is kept. -/
  kept : p.Represents exact → exact < 10 ^ (maxExponent + 1) →
    ∃ v, outcome = .ok v ∧ v.HasValue exact
  /-- What would lose digits close to zero is refused for that. -/
  refused : 0 < exact → exact < 10 ^ minExponent → ¬ p.Represents exact →
    ∃ cause, outcome = .error cause ∧ cause.Names (some .underflow)

section

variable {p : Precision} {x y v : Decimal} {exact r s : ℚ} {vanishes : Prop}
  {outcome : Except Cause Decimal}

/-- An outcome that agrees with the rounded value shows the exact one. -/
theorem faithfulNearZero_of_agree
    (h : Agree Cause.Names Decimal.HasValue outcome (attemptValue (p.roundValue exact)))
    (nonneg : 0 ≤ exact) (zero : exact = 0 ↔ vanishes) :
    p.FaithfulNearZero exact vanishes outcome where
  isZero_iff := by
    intro v success
    obtain ⟨w, value, rounded⟩ := exists_value_of_agree h success
    rw [value.isZero_iff, ← zero]
    exact Precision.roundValue_eq_zero_iff nonneg rounded
  kept := by
    intro represented range
    rw [represented.roundValue_eq nonneg range] at h
    exact h.exists_left
  refused := by
    intro positive small lost
    rw [Precision.roundValue_eq_underflow positive small lost] at h
    exact h.exists_error

end

/-! ### The operators -/

section

variable {p : Precision} {x y : FiniteDecimal}

/-- A sum has the rounded value. -/
theorem BinaryOp.roundValue_of_sum {v : Decimal}
    (h : BinaryOp.sum.apply p (.finite x) (.finite y) = .ok v) :
    ∃ sum : FiniteDecimal, v = .finite sum ∧ p.roundValue (x.toRat + y.toRat) = .ok sum.toRat := by
  obtain ⟨_, ⟨sum, rfl, rfl⟩, rounded⟩ := exists_value_of_agree
    (agree_sum (Decimal.hasValue_finite x) (Decimal.hasValue_finite y)) h
  exact ⟨sum, rfl, rounded⟩

/-- Sums show the exact sum. -/
theorem BinaryOp.faithful_sum (hx : 0 ≤ x.toRat) (hy : 0 ≤ y.toRat) :
    p.FaithfulNearZero (x.toRat + y.toRat) (x.isZero = true ∧ y.isZero = true)
      (BinaryOp.sum.apply p (.finite x) (.finite y)) := by
  refine faithfulNearZero_of_agree
    (agree_sum (Decimal.hasValue_finite x) (Decimal.hasValue_finite y)) (by linarith) ?_
  rw [isZero_iff, isZero_iff]
  exact add_eq_zero_iff_of_nonneg hx hy

/-- Differences show the exact distance. -/
theorem BinaryOp.faithful_difference :
    p.FaithfulNearZero |x.toRat - y.toRat| (x.toRat = y.toRat)
      (BinaryOp.difference.apply p (.finite x) (.finite y)) := by
  have agree := BinaryOp.difference.agree_onValues (p := p) (by decide)
    (Decimal.hasValue_finite x) (Decimal.hasValue_finite y)
  rw [onValues, Precision.map_abs_roundValue] at agree
  refine faithfulNearZero_of_agree agree (abs_nonneg _) ?_
  rw [abs_eq_zero, sub_eq_zero]

/-- Products show the exact product. -/
theorem BinaryOp.faithful_product (hx : 0 ≤ x.toRat) (hy : 0 ≤ y.toRat) :
    p.FaithfulNearZero (x.toRat * y.toRat) (x.isZero = true ∨ y.isZero = true)
      (BinaryOp.product.apply p (.finite x) (.finite y)) := by
  refine faithfulNearZero_of_agree (BinaryOp.product.agree_onValues (by decide)
    (Decimal.hasValue_finite x) (Decimal.hasValue_finite y)) (mul_nonneg hx hy) ?_
  rw [isZero_iff, isZero_iff]
  exact mul_eq_zero

/-- Quotients show the exact quotient. -/
theorem BinaryOp.faithful_quotient (hx : 0 ≤ x.toRat) (hy : 0 < y.toRat) :
    p.FaithfulNearZero (x.toRat / y.toRat) (x.isZero = true)
      (BinaryOp.quotient.apply p (.finite x) (.finite y)) := by
  have agree := BinaryOp.quotient.agree_onValues (p := p) (by decide)
    (Decimal.hasValue_finite x) (Decimal.hasValue_finite y)
  rw [onValues, if_neg (not_le.mpr hy)] at agree
  refine faithfulNearZero_of_agree agree (div_nonneg hx hy.le) ?_
  rw [isZero_iff, div_eq_zero_iff, or_iff_left hy.ne']

/-- Percentages show the exact hundredth. -/
theorem PostfixOp.faithful_percent (hx : 0 ≤ x.toRat) :
    p.FaithfulNearZero (x.toRat / 100) (x.isZero = true)
      (PostfixOp.percent.apply p (.finite x)) := by
  refine faithfulNearZero_of_agree (PostfixOp.percent.agree_onValue (Decimal.hasValue_finite x))
    (by linarith) ?_
  rw [isZero_iff, div_eq_zero_iff, or_iff_left (by norm_num)]

/-- Complements show what is left to one. -/
theorem PrefixOp.faithful_complement (hx : x.toRat ≤ 1) :
    p.FaithfulNearZero (1 - x.toRat) (x.toRat = 1)
      (PrefixOp.complement.apply p (.finite x)) := by
  refine faithfulNearZero_of_agree (agree_complement (Decimal.hasValue_finite x) hx)
    (by linarith) ?_
  rw [sub_eq_zero, eq_comm]

/-- What becomes of an average close to zero, which is half of the rounded sum: nothing but an
average of zeros is zero, and what is exact below the range of full digits is kept. Otherwise it
fails as the sum does, or shows the exact half of the rounded sum. -/
structure BinaryOp.AverageNearZero (p : Precision) (x y : FiniteDecimal) : Prop where
  /-- Nothing else comes out as zero. -/
  isZero_iff {v : Decimal} : BinaryOp.average.apply p (.finite x) (.finite y) = .ok v →
    (v.isZero = true ↔ x.isZero = true ∧ y.isZero = true)
  /-- What has the digits of the precision is kept, below the range of full digits. -/
  kept : p.Represents ((x.toRat + y.toRat) / 2) → (x.toRat + y.toRat) / 2 < 10 ^ minExponent →
    ∃ v, BinaryOp.average.apply p (.finite x) (.finite y) = .ok v ∧
      v.HasValue ((x.toRat + y.toRat) / 2)
  /-- Without a sum there is no average, for the same condition. -/
  withoutSum {cause : Cause} : BinaryOp.sum.apply p (.finite x) (.finite y) = .error cause →
    ∃ other, BinaryOp.average.apply p (.finite x) (.finite y) = .error other ∧
      other.Names cause.condition?
  /-- With a sum the average shows the exact half of it. -/
  halved {sum : FiniteDecimal} :
    BinaryOp.sum.apply p (.finite x) (.finite y) = .ok (.finite sum) →
    p.FaithfulNearZero (sum.toRat / 2) (x.isZero = true ∧ y.isZero = true)
      (BinaryOp.average.apply p (.finite x) (.finite y))

/-- Without a sum there is no average, for the same condition. -/
theorem BinaryOp.average_withoutSum {cause : Cause}
    (h : BinaryOp.sum.apply p (.finite x) (.finite y) = .error cause) :
    ∃ other, BinaryOp.average.apply p (.finite x) (.finite y) = .error other ∧
      other.Names cause.condition? := by
  have sum := agree_sum (p := p) (Decimal.hasValue_finite x) (Decimal.hasValue_finite y)
  have average := agree_average (p := p) (Decimal.hasValue_finite x) (Decimal.hasValue_finite y)
  rw [h] at sum
  rw [Precision.averageValue] at average
  cases rounded : p.roundValue (x.toRat + y.toRat) with
  | ok v =>
    rw [rounded] at sum
    cases sum
  | error condition =>
    rw [rounded] at sum average
    cases sum with
    | error names =>
      rw [names.2]
      exact average.exists_error

/-- With a sum the average shows the exact half of it. -/
theorem BinaryOp.faithful_average {sum : FiniteDecimal} (hx : 0 ≤ x.toRat) (hy : 0 ≤ y.toRat)
    (h : BinaryOp.sum.apply p (.finite x) (.finite y) = .ok (.finite sum)) :
    p.FaithfulNearZero (sum.toRat / 2) (x.isZero = true ∧ y.isZero = true)
      (BinaryOp.average.apply p (.finite x) (.finite y)) := by
  have agree := agree_average (p := p) (Decimal.hasValue_finite x) (Decimal.hasValue_finite y)
  obtain ⟨_, ⟨⟩, rounded⟩ := roundValue_of_sum h
  rw [Precision.averageValue, rounded] at agree
  have nonneg : 0 ≤ sum.toRat := by
    rw [Precision.eq_nearest_of_roundValue rounded]
    exact Precision.nearest_nonneg (add_nonneg hx hy)
  refine faithfulNearZero_of_agree agree (by linarith) ?_
  rw [← (faithful_sum hx hy).isZero_iff h, (Decimal.hasValue_finite sum).isZero_iff,
    div_eq_zero_iff, or_iff_left two_ne_zero]

/-- Averages close to zero. -/
theorem BinaryOp.averageNearZero (hx : 0 ≤ x.toRat) (hy : 0 ≤ y.toRat) :
    BinaryOp.AverageNearZero p x y where
  isZero_iff := by
    intro v h
    cases hsum : BinaryOp.sum.apply p (.finite x) (.finite y) with
    | error cause =>
      obtain ⟨other, failed, -⟩ := average_withoutSum hsum
      cases h.symm.trans failed
    | ok sum =>
      obtain ⟨_, rfl, -⟩ := roundValue_of_sum hsum
      exact (faithful_average hx hy hsum).isZero_iff h
  kept := by
    intro represented small
    have agree := agree_average (p := p) (Decimal.hasValue_finite x) (Decimal.hasValue_finite y)
    rw [Precision.averageValue_eq (by linarith) small represented] at agree
    exact agree.exists_left
  withoutSum := average_withoutSum
  halved := faithful_average hx hy

/-- What comes out as zero is a difference of equal numbers. -/
theorem BinaryOp.equal_of_difference {v : Decimal}
    (h : BinaryOp.difference.apply p (.finite x) (.finite y) = .ok v) :
    BinaryOp.equal.apply p (.finite x) (.finite y) = .ok (.ofBool v.isZero) := by
  have zero := faithful_difference.isZero_iff h
  have same : decide (x.toRat = y.toRat) = v.isZero := by
    rw [Bool.eq_iff_iff, decide_eq_true_iff]
    exact zero.symm
  rw [apply, (Decimal.hasValue_finite x).equals (Decimal.hasValue_finite y), same]
  rfl

end

/-- Of numbers that are not below zero, sums, products, quotients, percentages and complements show
the exact result close to zero, and so do differences, which are zero exactly if the numbers are
equal. Averages show the exact half of the rounded sum. -/
theorem faithful_near_zero (p : Precision) (x y : FiniteDecimal) (hx : 0 ≤ x.toRat)
    (hy : 0 ≤ y.toRat) :
    p.FaithfulNearZero (x.toRat + y.toRat) (x.isZero = true ∧ y.isZero = true)
      (BinaryOp.sum.apply p (.finite x) (.finite y)) ∧
    p.FaithfulNearZero |x.toRat - y.toRat| (x.toRat = y.toRat)
      (BinaryOp.difference.apply p (.finite x) (.finite y)) ∧
    (∀ v, BinaryOp.difference.apply p (.finite x) (.finite y) = .ok v →
      BinaryOp.equal.apply p (.finite x) (.finite y) = .ok (.ofBool v.isZero)) ∧
    p.FaithfulNearZero (x.toRat * y.toRat) (x.isZero = true ∨ y.isZero = true)
      (BinaryOp.product.apply p (.finite x) (.finite y)) ∧
    (0 < y.toRat → p.FaithfulNearZero (x.toRat / y.toRat) (x.isZero = true)
      (BinaryOp.quotient.apply p (.finite x) (.finite y))) ∧
    p.FaithfulNearZero (x.toRat / 100) (x.isZero = true) (PostfixOp.percent.apply p (.finite x)) ∧
    (x.toRat ≤ 1 → p.FaithfulNearZero (1 - x.toRat) (x.toRat = 1)
      (PrefixOp.complement.apply p (.finite x))) ∧
    BinaryOp.AverageNearZero p x y :=
  ⟨BinaryOp.faithful_sum hx hy, BinaryOp.faithful_difference,
    fun _ ↦ BinaryOp.equal_of_difference, BinaryOp.faithful_product hx hy,
    BinaryOp.faithful_quotient hx, PostfixOp.faithful_percent hx, PrefixOp.faithful_complement,
    BinaryOp.averageNearZero hx hy⟩

/-- The least number with all digits, in units one place further down. -/
theorem tenPow_minExponent : (10 : ℚ) ^ minExponent = 10 * 10 ^ (-1000000 : ℤ) :=
  tenPow_eq_ten_mul minExponent

/-- That number as a decimal. -/
theorem toRat_minExponent :
    FiniteDecimal.toRat ⟨false, 1, minExponent⟩ = 10 * 10 ^ (-1000000 : ℤ) := by
  rw [toRat_of_negative rfl, Nat.cast_one, one_mul]
  exact tenPow_minExponent

/-- With one digit the difference of 10 and 8 units that are too small to count is refused. -/
theorem faithful_near_zero_two_units :
    let p : Precision := ⟨1, by decide⟩
    let x : FiniteDecimal := ⟨false, 1, minExponent⟩
    let y : FiniteDecimal := ⟨false, 8, -1000000⟩
    0 ≤ x.toRat ∧ 0 ≤ y.toRat ∧ ∃ cause,
      BinaryOp.difference.apply p (.finite x) (.finite y) = .error cause ∧
        cause.Names (some .underflow) := by
  intro p x y
  have hx : 0 ≤ x.toRat := toRat_nonneg rfl
  have hy : 0 ≤ y.toRat := toRat_nonneg rfl
  have unit := tenPow_pos (-1000000)
  have difference : |x.toRat - y.toRat| = 2 * 10 ^ (-1000000 : ℤ) := by
    have first : x.toRat = 10 * 10 ^ (-1000000 : ℤ) := toRat_minExponent
    have second : y.toRat = 8 * 10 ^ (-1000000 : ℤ) := toRat_of_negative rfl
    rw [first, second, ← sub_mul, abs_of_pos (mul_pos (by norm_num) unit)]
    norm_num
  refine ⟨hx, hy, (faithful_near_zero p x y hx hy).2.1.refused ?_ ?_ ?_⟩
  · rw [difference]
    linarith
  · rw [difference, tenPow_minExponent]
    linarith
  · intro represented
    have above : (10 : ℚ) ^ minExponent ≤ _ :=
      represented.tenPow_leastExponent_le (by rw [difference]; linarith)
    rw [difference, tenPow_minExponent] at above
    linarith

/-- An average is not as strict as one operation. With one digit the average of 10 and 8 units that
are too small to count is below all positive numbers; but as the sum is rounded to 20 units, the
average comes out as 10. -/
theorem BinaryOp.average_above_exact :
    let p : Precision := ⟨1, by decide⟩
    let x : FiniteDecimal := ⟨false, 1, minExponent⟩
    let y : FiniteDecimal := ⟨false, 8, -1000000⟩
    0 < (x.toRat + y.toRat) / 2 ∧
      (∀ g, p.Represents g → 0 < g → (x.toRat + y.toRat) / 2 < g) ∧
      BinaryOp.average.apply p (.finite x) (.finite y) = .ok (.finite x) := by
  intro p x y
  have unit := tenPow_pos (-1000000)
  have average : (x.toRat + y.toRat) / 2 = 9 * 10 ^ (-1000000 : ℤ) := by
    have first : x.toRat = 10 * 10 ^ (-1000000 : ℤ) := toRat_minExponent
    have second : y.toRat = 8 * 10 ^ (-1000000 : ℤ) := toRat_of_negative rfl
    rw [first, second, ← add_mul, mul_div_right_comm]
    norm_num
  rw [average]
  refine ⟨by linarith, ?_, by decide +kernel⟩
  intro g represented positive
  have least : (10 : ℚ) ^ minExponent ≤ g := represented.tenPow_leastExponent_le positive
  rw [tenPow_minExponent] at least
  linarith

end FuzzyCalc
