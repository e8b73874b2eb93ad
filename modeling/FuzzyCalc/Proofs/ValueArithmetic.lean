import FuzzyCalc.Proofs.RoundedValue
import FuzzyCalc.Proofs.Success

/-!
# Sums and products of values

Sums and products of finite decimals are found by rounding the exact value of the result. Rounding
only looks at that value: whether it is refused, and for which condition, and the value that comes
out.
-/

namespace FuzzyCalc

open FiniteDecimal

/-! ### Rounding -/

namespace Precision

variable {p : Precision} {r s g : ℚ}

/-- What rounding makes of an exact value: the nearest number, unless it is out of range before or
after, or is not exact below the smallest exponent of full digits. -/
def roundValue (p : Precision) (r : ℚ) : Except Condition ℚ :=
  if r = 0 then .ok 0
  else if Int.log 10 |r| < p.leastExponent then .error .underflow
  else if maxExponent < Int.log 10 |r| then .error .overflow
  else if Int.log 10 |r| < minExponent ∧ p.nearest r ≠ r then .error .underflow
  else if maxExponent < Int.log 10 |p.nearest r| then .error .overflow
  else .ok (p.nearest r)

/-- Zero is rounded to zero. -/
@[simp] theorem roundValue_zero (p : Precision) : p.roundValue 0 = .ok 0 := if_pos rfl

/-- Only the nearest number is a result. -/
theorem eq_nearest_of_roundValue (h : p.roundValue r = .ok s) : s = p.nearest r := by
  unfold roundValue at h
  split_ifs at h with zero
  · cases h
    rw [zero, nearest_zero]
  · cases h
    rfl

/-- Numbers of opposite sign are rounded to numbers of opposite sign, or both refused. -/
theorem roundValue_neg (p : Precision) (r : ℚ) :
    p.roundValue (-r) = (- ·) <$> p.roundValue r := by
  simp only [roundValue, neg_eq_zero, abs_neg, nearest_neg, neg_inj, ne_eq]
  split_ifs
  all_goals rfl

/-- A rounded difference without its sign is the rounded distance. -/
theorem map_abs_roundValue (p : Precision) (r : ℚ) :
    (|·|) <$> p.roundValue r = p.roundValue |r| := by
  have kept {s : ℚ} (hs : 0 ≤ s) : (|·|) <$> p.roundValue s = p.roundValue s := by
    cases rounded : p.roundValue s with
    | error condition => rfl
    | ok v =>
      rw [eq_nearest_of_roundValue rounded]
      exact congrArg Except.ok (abs_of_nonneg (nearest_nonneg hs))
  rcases le_total 0 r with above | below
  · rw [abs_of_nonneg above]
    exact kept above
  · have opposite := kept (neg_nonneg.mpr below)
    rw [abs_of_nonpos below, ← opposite, roundValue_neg]
    cases p.roundValue r with
    | error condition => rfl
    | ok v => exact congrArg Except.ok (abs_neg v).symm

/-- Below a number that has the digits of the precision and is not too large, rounding stays below
it; all that can happen is that digits are lost close to zero. -/
theorem roundValue_le (hr : 0 ≤ r) (h : r ≤ g) (hg : p.Represents g)
    (range : Int.log 10 g ≤ maxExponent) :
    (p.roundValue r = .ok (p.nearest r) ∧ 0 ≤ p.nearest r ∧ p.nearest r ≤ g) ∨
      p.roundValue r = .error .underflow := by
  have least := nearest_nonneg (p := p) hr
  have most := nearest_le hr hg h
  unfold roundValue
  split_ifs with zero tiny large inexact carried
  · rw [zero] at least most ⊢
    rw [nearest_zero] at least most ⊢
    exact .inl ⟨rfl, least, most⟩
  · exact .inr rfl
  · have logs := Int.log_mono_right (b := 10) (abs_pos.mpr zero) ((abs_of_nonneg hr).trans_le h)
    omega
  · exact .inr rfl
  · -- A number with a large leading digit is not zero.
    have positive : 0 < p.nearest r := by
      refine lt_of_le_of_ne least fun none ↦ ?_
      rw [← none, abs_zero, Int.log_zero_right] at carried
      exact absurd carried (by decide)
    have logs := Int.log_mono_right (b := 10) positive most
    rw [abs_of_pos positive] at carried
    omega
  · exact .inl ⟨rfl, least, most⟩

end Precision

namespace FiniteDecimal

variable {p : Precision} {x y : FiniteDecimal}

/-- The last digit counts what it did, or what it must around the value. -/
theorem roundedExponent_eq (h : x.coefficient ≠ 0) :
    x.roundedExponent p = max x.exponent (p.gridExponent x.toRat) := by
  rw [roundedExponent, Precision.gridExponent, log_toRat h]

/-- The power of ten that the last digit counts after rounding, in rounded units. -/
theorem tenPow_roundedExponent (p : Precision) (x : FiniteDecimal) :
    (10 : ℚ) ^ x.roundedExponent p = x.roundingUnit p * 10 ^ x.exponent := by
  have higher : x.exponent ≤ x.roundedExponent p := le_max_left _ _
  rw [roundingUnit, Digits.cast_tenTo, ← tenPow_eq higher]

/-- The coefficient counts in rounded units what the value counts in powers of ten. -/
theorem coefficient_div_roundingUnit (p : Precision) (x : FiniteDecimal) :
    |x.toRat| / 10 ^ x.roundedExponent p = (x.coefficient : ℚ) / x.roundingUnit p := by
  rw [abs_toRat, tenPow_roundedExponent, mul_div_mul_right _ _ (tenPow_pos _).ne']

/-- Rounding brings no more digits than the precision has, but for a one with zeros behind it. -/
theorem roundHalfEven_le_tenTo (p : Precision) (x : FiniteDecimal) :
    roundHalfEven x.coefficient (x.roundingUnit p) ≤ Digits.tenTo p.digits := by
  have unit := roundingUnit_pos p x
  have enough : Digits.count x.coefficient ≤
      (x.roundedExponent p - x.exponent).toNat + p.digits := by
    unfold roundedExponent leadingExponent
    omega
  have quotient : x.coefficient / x.roundingUnit p < Digits.tenTo p.digits := by
    rw [Nat.div_lt_iff_lt_mul unit, Nat.mul_comm, roundingUnit, ← Digits.tenTo_add]
    exact (Digits.lt_tenTo_count _).trans_le (Digits.tenTo_le_tenTo enough)
  have rounded := roundHalfEven_le x.coefficient (x.roundingUnit p)
  omega

/-- One digit more than the precision has is a zero. -/
theorem carry_exact {c : ℕ} (h : c ≤ Digits.tenTo p.digits)
    (carried : p.digits < Digits.count c) : c / 10 * 10 = c := by
  have positive : 0 < c := Nat.pos_of_ne_zero fun zero ↦ by
    have digits := p.digits_pos
    have one : Digits.count 0 = 1 := rfl
    rw [zero, one] at carried
    omega
  have least : Digits.tenTo p.digits ≤ c :=
    (Digits.tenTo_le_tenTo (by omega)).trans (Digits.tenTo_count_le positive)
  obtain ⟨n, hn⟩ : ∃ n, p.digits = n + 1 := ⟨p.digits - 1, by have := p.digits_pos; omega⟩
  rw [le_antisymm h least, hn, Digits.tenTo_succ, Nat.mul_div_cancel _ (by norm_num)]

/-- Without its sign the nearest decimal is the rounded coefficient in rounded units. -/
theorem abs_toRat_nearest (p : Precision) (x : FiniteDecimal) :
    |(x.nearest p).toRat| =
      roundHalfEven x.coefficient (x.roundingUnit p) * 10 ^ x.roundedExponent p := by
  rw [abs_toRat]
  unfold nearest
  dsimp only
  split
  · next carried =>
    have exact : ((roundHalfEven x.coefficient (x.roundingUnit p) / 10 : ℕ) : ℚ) * 10 =
        roundHalfEven x.coefficient (x.roundingUnit p) := by
      exact_mod_cast carry_exact (roundHalfEven_le_tenTo p x) carried
    rw [add_comm, tenPow_add, ← mul_assoc, zpow_one, exact]
  · rfl

/-- Rounding keeps the sign, also out of range. -/
theorem negative_nearest (p : Precision) (x : FiniteDecimal) :
    (x.nearest p).negative = x.negative := by
  unfold nearest
  dsimp only
  split <;> rfl

/-- The nearest decimal has the nearest value. -/
theorem toRat_nearest (h : x.coefficient ≠ 0) : (x.nearest p).toRat = p.nearest x.toRat := by
  have integer : (roundHalfEven x.coefficient (x.roundingUnit p) : ℚ) =
      halfEven (|x.toRat| / 10 ^ x.roundedExponent p) := by
    rw [coefficient_div_roundingUnit,
      (isNearestEven_roundHalfEven _ (roundingUnit_pos p x)).halfEven_eq, Int.cast_natCast]
  have magnitude : |(x.nearest p).toRat| = p.nearest |x.toRat| := by
    rw [abs_toRat_nearest, integer, roundedExponent_eq h]
    rcases le_total x.exponent (p.gridExponent x.toRat) with finer | coarser
    · rw [max_eq_right finer, Precision.nearest, Precision.gridExponent_abs]
    · -- All digits fit, and neither changes the number.
      obtain ⟨n, hn⟩ := Precision.exists_multiple coarser x.coefficient
      have whole : |x.toRat| / 10 ^ x.exponent = (x.coefficient : ℤ) := by
        rw [abs_toRat, mul_div_cancel_right₀ _ (tenPow_pos _).ne', Int.cast_natCast]
      have unchanged : p.nearest |x.toRat| = |x.toRat| := by
        rw [Precision.nearest_eq_self_iff, Precision.gridExponent_abs, abs_toRat]
        exact ⟨n, by rw [← hn, Int.cast_natCast]⟩
      rw [max_eq_left coarser, whole, halfEven_intCast, unchanged, abs_toRat, Int.cast_natCast]
  rw [toRat_eq_abs, magnitude, negative_nearest, toRat_eq_abs x]
  split
  · rw [abs_neg, abs_abs, Precision.nearest_neg]
  · rw [abs_abs]

/-- Nothing is rounded off exactly if the value is not changed. -/
theorem mod_roundingUnit_eq_zero (h : x.coefficient ≠ 0) :
    x.coefficient % x.roundingUnit p = 0 ↔ p.nearest x.toRat = x.toRat := by
  have digits : x.signed.natAbs = x.coefficient := by
    unfold signed
    split <;> omega
  rw [← Nat.dvd_iff_mod_eq_zero, ← digits, ← Int.natCast_dvd, Precision.nearest_eq_self_iff]
  constructor
  · rintro ⟨k, hk⟩
    have finer : p.gridExponent x.toRat ≤ x.roundedExponent p := by
      rw [roundedExponent_eq h]
      exact le_max_right _ _
    obtain ⟨n, hn⟩ := Precision.exists_multiple finer k
    refine ⟨n, ?_⟩
    rw [← hn, toRat, hk, tenPow_roundedExponent]
    push_cast
    ring
  · rintro ⟨n, hn⟩
    rcases le_total x.exponent (p.gridExponent x.toRat) with finer | coarser
    · have exponent := roundedExponent_eq (p := p) h
      rw [max_eq_right finer] at exponent
      rw [← exponent, tenPow_roundedExponent, ← mul_assoc, toRat] at hn
      have multiple := mul_right_cancel₀ (tenPow_pos _).ne' hn
      refine ⟨n, ?_⟩
      rw [mul_comm]
      exact_mod_cast multiple
    · -- All digits fit.
      have one : x.roundingUnit p = 1 := by
        rw [roundingUnit, roundedExponent_eq h, max_eq_left coarser, sub_self]
        rfl
      rw [one]
      exact one_dvd _

/-- The value of a rounded number is its rounded value. -/
theorem toRat_round (p : Precision) (x : FiniteDecimal) :
    toRat <$> x.round p = p.roundValue x.toRat := by
  by_cases zero : x.coefficient = 0
  · have value := toRat_eq_zero.mpr zero
    rw [value, Precision.roundValue_zero, round_zero zero]
    exact congrArg Except.ok (toRat_eq_zero.mpr zero)
  · have value := mt toRat_eq_zero.mp zero
    have exactly := mod_roundingUnit_eq_zero (p := p) zero
    have leading := log_toRat zero
    have carries (exact : ¬ (x.leadingExponent < minExponent ∧ ¬ p.nearest x.toRat = x.toRat)) :
        (x.nearest p).leadingExponent = Int.log 10 |p.nearest x.toRat| := by
      have nonzero := coefficient_nearest_ne_zero (p := p) zero
        fun small ↦ exactly.mpr (not_not.mp (not_and.mp exact small))
      rw [← log_toRat nonzero, toRat_nearest zero]
    rw [round_of_ne_zero zero, Precision.roundValue, if_neg value, leading]
    simp only [ne_eq, exactly]
    split_ifs with tiny large inexact carried above above
    · rfl
    · rfl
    · rfl
    · rfl
    · exact absurd (carries inexact ▸ carried) above
    · exact absurd (carries inexact ▸ above) carried
    · exact congrArg Except.ok (toRat_nearest zero)

/-- The value of a sum is the rounded sum of the values. -/
theorem toRat_add (p : Precision) (x y : FiniteDecimal) :
    toRat <$> x.add p y = p.roundValue (x.toRat + y.toRat) := by
  rw [add, toRat_round, toRat_exactAdd]

/-- The value of a product is the rounded product of the values. -/
theorem toRat_mul (p : Precision) (x y : FiniteDecimal) :
    toRat <$> x.mul p y = p.roundValue (x.toRat * y.toRat) := by
  rw [mul, toRat_round, toRat_exactMul]

end FiniteDecimal

end FuzzyCalc
