import FuzzyCalc.Proofs.ValueArithmetic

/-!
# What rounding leaves alone

A value that has the digits of the precision is its own rounded value. Any other value is changed,
and below the range of full digits it is refused instead, so that rounding brings no value to zero.
In the range of full digits it is enough that a number has no more significant digits than the
precision, and rounding a value does not pass such a number.
-/

namespace FuzzyCalc

open FiniteDecimal

namespace Precision

variable {p : Precision} {r g v : ℚ}

/-! ### Values with the digits of the precision -/

/-- A multiple of a power of ten has a multiplier of no more digits than the precision, if it is
below the power that has as many zeros more. -/
theorem abs_lt_of_mul_lt {n e : ℤ} (least : (0 : ℚ) ≤ n * 10 ^ e)
    (most : (n : ℚ) * 10 ^ e < 10 ^ (e + p.digits)) : |n| < 10 ^ p.digits := by
  have unit := tenPow_pos e
  have nonneg : (0 : ℚ) ≤ n := nonneg_of_mul_nonneg_left least unit
  rw [tenPow_add, zpow_natCast, mul_comm] at most
  rw [abs_of_nonneg (by exact_mod_cast nonneg)]
  exact_mod_cast lt_of_mul_lt_mul_left most unit.le

/-- Up to that power, which it may be, a multiple of a power of ten in range has the digits of the
precision. -/
theorem represents_mul {n e : ℤ} (he : p.leastExponent ≤ e) (least : (0 : ℚ) ≤ n * 10 ^ e)
    (most : (n : ℚ) * 10 ^ e ≤ 10 ^ (e + p.digits)) : p.Represents (n * 10 ^ e) := by
  rcases most.eq_or_lt with top | below
  · rw [top]
    exact represents_tenPow (by omega)
  · exact ⟨n, e, abs_lt_of_mul_lt least below, he, rfl⟩

/-- A one with as many zeros as the precision has digits, in units of its last digit below one. -/
theorem tenPow_digits_mul (p : Precision) : (10 : ℚ) ^ p.digits * 10 ^ (-p.digits : ℤ) = 1 := by
  rw [← zpow_natCast, ← tenPow_add, add_neg_cancel, zpow_zero]

/-- A truth value with no more digits behind the point than the precision has digits has the digits
of the precision. -/
theorem represents_decimals {n : ℤ} (least : (0 : ℚ) ≤ n * 10 ^ (-p.digits : ℤ))
    (most : (n : ℚ) * 10 ^ (-p.digits : ℤ) ≤ 1) : p.Represents (n * 10 ^ (-p.digits : ℤ)) := by
  apply represents_mul ?_ least
  · rwa [neg_add_cancel, zpow_zero]
  · unfold leastExponent minExponent
    omega

/-- Exactly the values that have the digits of the precision are not changed. -/
theorem nearest_eq_self_iff_represents (hr : 0 ≤ r) : p.nearest r = r ↔ p.Represents r := by
  refine ⟨fun same ↦ ?_, nearest_eq_self hr⟩
  rcases hr.eq_or_lt with rfl | positive
  · exact represents_zero
  · obtain ⟨n, hn⟩ := nearest_eq_self_iff.mp same
    have digits : Int.log 10 |r| + 1 ≤ p.gridExponent r + p.digits := by
      unfold gridExponent
      omega
    have most := (lt_tenPow_log positive).le.trans (tenPow_le digits)
    have fits : p.leastExponent ≤ p.gridExponent r := le_max_right _ _
    generalize p.gridExponent r = e at hn most fits
    subst hn
    exact represents_mul fits hr most

/-- Nothing above zero that has the digits of the precision is below the least power of ten. -/
theorem Represents.tenPow_leastExponent_le (h : p.Represents g) (positive : 0 < g) :
    10 ^ p.leastExponent ≤ g := by
  obtain ⟨c, e, -, he, rfl⟩ := h
  have one : (1 : ℚ) ≤ c := by
    exact_mod_cast Int.cast_pos.mp (pos_of_mul_pos_left positive (tenPow_pos e).le)
  calc (10 : ℚ) ^ p.leastExponent ≤ 1 * 10 ^ e := by
        rw [one_mul]
        exact tenPow_le he
    _ ≤ c * 10 ^ e := mul_le_mul_of_nonneg_right one (tenPow_pos e).le

/-- A value that has the digits of the precision is its own rounded value, if it is not too
large. -/
theorem Represents.roundValue_eq (h : p.Represents r) (hr : 0 ≤ r)
    (range : r < 10 ^ (maxExponent + 1)) : p.roundValue r = .ok r := by
  have same := nearest_eq_self hr h
  unfold roundValue
  split_ifs with zero tiny large inexact carried
  · rw [zero]
  · have positive := lt_of_le_of_ne hr (Ne.symm zero)
    have top := (lt_tenPow_log positive).trans_le (tenPow_le (Int.add_one_le_of_lt tiny))
    exact absurd (h.tenPow_leastExponent_le positive) (not_le.mpr top)
  · have leading := log_lt_of_lt (lt_of_le_of_ne hr (Ne.symm zero)) range
    omega
  · exact absurd same inexact.2
  · rw [same] at carried
    exact absurd carried large
  · rw [same]

/-- Below the range of full digits only exact results are kept. -/
theorem eq_of_roundValue (hr : 0 ≤ r) (small : r < 10 ^ minExponent)
    (h : p.roundValue r = .ok v) : v = r := by
  unfold roundValue at h
  split_ifs at h with zero tiny large inexact carried
  · cases h
    exact zero.symm
  · cases h
    have leading := log_lt_of_lt (lt_of_le_of_ne hr (Ne.symm zero)) small
    by_contra changed
    exact inexact ⟨leading, changed⟩

/-- Below the range of full digits a value that would lose digits is refused. -/
theorem roundValue_eq_underflow (hr : 0 < r) (small : r < 10 ^ minExponent)
    (h : ¬ p.Represents r) : p.roundValue r = .error .underflow := by
  have leading := log_lt_of_lt hr small
  have changed : p.nearest r ≠ r := fun same ↦ h ((nearest_eq_self_iff_represents hr.le).mp same)
  have range : minExponent ≤ maxExponent := by decide
  unfold roundValue
  split_ifs with zero tiny large inexact carried
  · exact absurd zero hr.ne'
  · rfl
  · omega
  · rfl
  · exact absurd ⟨leading, changed⟩ inexact
  · exact absurd ⟨leading, changed⟩ inexact

/-- Zero is the result of zero alone. -/
theorem roundValue_eq_zero_iff (hr : 0 ≤ r) (h : p.roundValue r = .ok v) : v = 0 ↔ r = 0 := by
  constructor
  · intro zero
    by_cases small : r < 10 ^ minExponent
    · rw [← eq_of_roundValue hr small h]
      exact zero
    · -- A power of ten lies below the result.
      have digits := p.digits_pos
      have below : p.Represents (10 ^ minExponent) := represents_tenPow (by
        unfold leastExponent
        omega)
      have least := le_nearest hr below (not_lt.mp small)
      rw [← eq_nearest_of_roundValue h, zero] at least
      exact absurd least (not_le.mpr (tenPow_pos _))
  · rintro rfl
    rw [roundValue_zero] at h
    exact (Except.ok.inj h).symm

/-! ### The last digit -/

/-- In the range of full digits these reach down from the leading one. -/
theorem gridExponent_of_le (full : 10 ^ minExponent ≤ r) :
    p.gridExponent r = Int.log 10 |r| + 1 - p.digits := by
  have below := full.trans_lt (lt_tenPow_log ((tenPow_pos _).trans_le full))
  have leading : minExponent < Int.log 10 |r| + 1 :=
    (zpow_lt_zpow_iff_right₀ (by norm_num)).mp below
  unfold gridExponent leastExponent
  omega

/-- From one to below ten the leading digit counts ones. -/
theorem log_eq_zero (least : 1 ≤ r) (most : r < 10) : Int.log 10 r = 0 := by
  have digits : ⌊r⌋₊ < 10 := (Nat.floor_lt (by linarith)).mpr (by exact_mod_cast most)
  rw [Int.log_of_one_le_right _ least, Nat.log_of_lt digits, Nat.cast_zero]

/-- From one to below ten the last digit comes as many places behind the point as the precision has
digits behind the first. -/
theorem gridExponent_of_digit (least : 1 ≤ r) (most : r < 10) :
    p.gridExponent r = 1 - p.digits := by
  rw [gridExponent, abs_of_pos (by linarith), log_eq_zero least most]
  unfold leastExponent minExponent
  omega

/-! ### Numbers of few digits -/

/-- A number that has no more significant digits than a precision, in range or not. -/
def HasDigits (p : Precision) (g : ℚ) : Prop := ∃ c e : ℤ, |c| < 10 ^ p.digits ∧ g = c * 10 ^ e

/-- A decimal that is written with no more digits has no more significant ones. -/
theorem hasDigits_toRat {x : FiniteDecimal} (h : Digits.count x.coefficient ≤ p.digits) :
    p.HasDigits x.toRat := by
  refine ⟨x.signed, x.exponent, ?_, rfl⟩
  have written : x.coefficient < 10 ^ p.digits :=
    (Digits.lt_tenTo_count x.coefficient).trans_le (Digits.tenTo_le_tenTo h)
  have size : |x.signed| = x.coefficient := by
    unfold signed
    split <;> simp
  rw [size]
  exact_mod_cast written

/-- The smaller of two numbers of few digits is one of them. -/
theorem HasDigits.min (digits : p.HasDigits r) (digits' : p.HasDigits s) :
    p.HasDigits (min r s) := by
  rcases min_choice r s with first | second
  · rwa [first]
  · rwa [second]

/-- The larger of two numbers of few digits is one of them. -/
theorem HasDigits.max (digits : p.HasDigits r) (digits' : p.HasDigits s) :
    p.HasDigits (max r s) := by
  rcases max_choice r s with first | second
  · rwa [first]
  · rwa [second]

/-- Above a power of ten the last of the digits is not more than their number below. -/
theorem HasDigits.exists_exponent {e : ℤ} (h : p.HasDigits g) (least : 10 ^ e ≤ g) :
    ∃ c f : ℤ, |c| < 10 ^ p.digits ∧ e < f + p.digits ∧ g = c * 10 ^ f := by
  obtain ⟨c, f, hc, rfl⟩ := h
  have above := least.trans_lt (mul_tenPow_lt hc)
  exact ⟨c, f, hc, (zpow_lt_zpow_iff_right₀ (by norm_num)).mp above, rfl⟩

/-- In range of full digits a number of few digits need not be rounded. -/
theorem HasDigits.represents (h : p.HasDigits g) (hg : 10 ^ minExponent ≤ g) :
    p.Represents g := by
  obtain ⟨c, e, hc, exponents, rfl⟩ := h.exists_exponent hg
  refine ⟨c, e, hc, ?_, rfl⟩
  unfold leastExponent
  omega

/-- Above a power of ten a number of few digits is a multiple of the power that many digits
lower. -/
theorem HasDigits.exists_mul {e : ℤ} (h : p.HasDigits g) (least : 10 ^ e ≤ g) :
    ∃ n : ℤ, g = n * 10 ^ (e + 1 - p.digits) := by
  obtain ⟨c, f, -, exponents, rfl⟩ := h.exists_exponent least
  exact Precision.exists_multiple (by omega) c

/-- A result does not pass a number of few digits above the exact one. -/
theorem HasDigits.roundValue_le (hg : p.HasDigits g) (hr : 0 ≤ r) (le : r ≤ g)
    (h : p.roundValue r = .ok v) : v ≤ g := by
  by_cases full : 10 ^ minExponent ≤ g
  · rw [eq_nearest_of_roundValue h]
    exact nearest_le hr (hg.represents full) le
  · rw [eq_of_roundValue hr (by linarith) h]
    exact le

/-- A result does not pass a number of few digits below the exact one. -/
theorem HasDigits.le_roundValue (hg : p.HasDigits g) (hr : 0 ≤ r) (le : g ≤ r)
    (h : p.roundValue r = .ok v) : g ≤ v := by
  by_cases full : 10 ^ minExponent ≤ g
  · rw [eq_nearest_of_roundValue h]
    exact le_nearest hr (hg.represents full) le
  · by_cases small : r < 10 ^ minExponent
    · rw [eq_of_roundValue hr small h]
      exact le
    · -- A power of ten lies between the two.
      have between : p.Represents (10 ^ minExponent) := by
        apply represents_tenPow
        have digits := p.digits_pos
        unfold leastExponent
        omega
      have above := le_nearest hr between (by linarith)
      rw [eq_nearest_of_roundValue h]
      linarith

/-- A number of few digits is not changed. -/
theorem HasDigits.roundValue_eq (hg : p.HasDigits g) (nonneg : 0 ≤ g)
    (h : p.roundValue g = .ok v) : v = g :=
  le_antisymm (hg.roundValue_le nonneg le_rfl h) (hg.le_roundValue nonneg le_rfl h)

/-- A multiple of a power of ten that is not below zero has few digits if the multiplier does. -/
theorem hasDigits_mul {n e : ℤ} (least : (0 : ℚ) ≤ n * 10 ^ e) (most : (n : ℚ) < 10 ^ p.digits) :
    p.HasDigits (n * 10 ^ e) := by
  have nonneg : (0 : ℚ) ≤ n := nonneg_of_mul_nonneg_left least (tenPow_pos e)
  refine ⟨n, e, ?_, rfl⟩
  rw [abs_of_nonneg (by exact_mod_cast nonneg)]
  exact_mod_cast most

/-- A multiple of a power of ten that is not below zero has few digits up to the power that has as
many zeros more. -/
theorem hasDigits_of_le {n e : ℤ} (least : (0 : ℚ) ≤ n * 10 ^ e)
    (most : (n : ℚ) * 10 ^ e ≤ 10 ^ (e + p.digits)) : p.HasDigits (n * 10 ^ e) := by
  rcases most.eq_or_lt with top | below
  · refine ⟨1, e + p.digits, ?_, by rw [top, Int.cast_one, one_mul]⟩
    rw [abs_one]
    exact one_lt_pow₀ (by norm_num) p.digits_pos.ne'
  · exact ⟨n, e, abs_lt_of_mul_lt least below, rfl⟩

end Precision

end FuzzyCalc
