import Mathlib.Data.Int.Log
import Mathlib.Data.Rat.Floor
import Mathlib.Tactic.Linarith
import Mathlib.Tactic.Ring
import FuzzyCalc.Decimal.Arithmetic
import FuzzyCalc.Proofs.Numerals

/-!
# Exact values

The value of a finite decimal is a rational number. Exact sums and products have the sum and the
product of the values, the order of decimals is that of their values, and the exponent of the
leading digit is the logarithm of the value. So all of these depend on the value alone, however many
zeros the digits end in.
-/

namespace FuzzyCalc

namespace Digits

/-- A number written with zeros behind a one is a power of ten. -/
@[simp] theorem cast_tenTo (n : Nat) : ((tenTo n : Nat) : ℚ) = 10 ^ n := Nat.cast_pow 10 n

end Digits

namespace FiniteDecimal

/-- A power of ten is positive. -/
theorem tenPow_pos (e : ℤ) : (0 : ℚ) < 10 ^ e := zpow_pos (by norm_num) e

/-- Exponents of powers of ten add up. -/
theorem tenPow_add (d e : ℤ) : (10 : ℚ) ^ (d + e) = 10 ^ d * 10 ^ e :=
  zpow_add₀ (by norm_num) d e

/-- Higher powers of ten are larger. -/
theorem tenPow_le {d e : ℤ} (h : d ≤ e) : (10 : ℚ) ^ d ≤ 10 ^ e :=
  zpow_le_zpow_right₀ (by norm_num) h

/-- A power of ten is a multiple of every lower one. -/
theorem tenPow_eq {d e : ℤ} (h : d ≤ e) : (10 : ℚ) ^ e = 10 ^ (e - d).toNat * 10 ^ d := by
  rw [← zpow_natCast, Int.toNat_of_nonneg (by omega), ← tenPow_add, Int.sub_add_cancel]

/-- A power of ten is ten of the next lower one. -/
theorem tenPow_eq_ten_mul (e : ℤ) : (10 : ℚ) ^ e = 10 * 10 ^ (e - 1) := by
  rw [← zpow_one_add₀ (by norm_num), add_sub_cancel]

variable {x y : FiniteDecimal}

/-- Without its sign the value is the coefficient times the power of ten. -/
theorem abs_toRat (x : FiniteDecimal) : |x.toRat| = x.coefficient * 10 ^ x.exponent := by
  have digits : |(x.signed : ℚ)| = x.coefficient := by
    unfold signed
    split
    · simp
    · simp
  rw [toRat, abs_mul, digits, abs_of_pos (tenPow_pos _)]

/-- A number without a minus sign is its coefficient times the power of ten. -/
theorem toRat_of_negative (h : x.negative = false) :
    x.toRat = x.coefficient * 10 ^ x.exponent := by
  simp [toRat, signed, h]

/-- Then it is not below zero. -/
theorem toRat_nonneg (h : x.negative = false) : 0 ≤ x.toRat := by
  rw [toRat_of_negative h]
  exact mul_nonneg x.coefficient.cast_nonneg (tenPow_pos _).le

/-- The sign of the value is the sign of the number. -/
theorem toRat_eq_abs (x : FiniteDecimal) :
    x.toRat = if x.negative then -|x.toRat| else |x.toRat| := by
  rw [abs_toRat]
  split
  · next sign => simp [toRat, signed, sign]
  · next sign => exact toRat_of_negative (Bool.eq_false_iff.mpr sign)

/-- Only zeros have the value zero. -/
theorem toRat_eq_zero : x.toRat = 0 ↔ x.coefficient = 0 := by
  rw [← abs_eq_zero, abs_toRat, mul_eq_zero, Nat.cast_eq_zero, or_iff_left (tenPow_pos _).ne']

/-- A number is a zero if its value is zero. -/
theorem isZero_iff : x.isZero = true ↔ x.toRat = 0 := by
  rw [toRat_eq_zero]
  simp [isZero]

/-- The other sign gives the opposite value. -/
@[simp] theorem toRat_neg (x : FiniteDecimal) : x.neg.toRat = -x.toRat := by
  have signs : x.neg.signed = -x.signed := by
    unfold signed neg
    cases x.negative <;> simp
  rw [toRat, signs, toRat]
  simp [neg]

/-- Without its sign a number has its absolute value. -/
@[simp] theorem toRat_abs (x : FiniteDecimal) : x.abs.toRat = |x.toRat| := by
  rw [abs_toRat]
  exact toRat_of_negative rfl

/-- A natural number has itself as its value. -/
@[simp] theorem toRat_ofNat (n : Nat) : (ofNat n).toRat = n := by
  simp [toRat_of_negative, ofNat]

/-- An aligned coefficient counts in units of its power of ten. -/
theorem alignedTo_mul {e : ℤ} (h : e ≤ x.exponent) : (x.alignedTo e : ℚ) * 10 ^ e = x.toRat := by
  unfold alignedTo
  split
  · next zero =>
    have none : x.coefficient = 0 := by simpa [isZero] using zero
    rw [toRat_eq_zero.mpr none, Int.cast_zero, zero_mul]
  · rw [toRat, tenPow_eq h]
    push_cast
    rw [Digits.cast_tenTo, mul_assoc]

/-- An exact sum adds up multiples of the smaller power of ten. -/
theorem signed_exactAdd (x y : FiniteDecimal) :
    (x.exactAdd y).signed =
      x.alignedTo (min x.exponent y.exponent) + y.alignedTo (min x.exponent y.exponent) := by
  rcases lt_trichotomy (x.alignedTo (min x.exponent y.exponent) +
    y.alignedTo (min x.exponent y.exponent)) 0 with below | zero | above
  · simp only [exactAdd, signed, if_neg below.ne, decide_eq_true below, if_true]
    omega
  · simp [exactAdd, signed, zero]
  · simp only [exactAdd, signed, if_neg above.ne', decide_eq_false above.not_gt,
      Bool.false_eq_true, if_false]
    omega

/-- The value of an exact sum is the sum of the values. -/
theorem toRat_exactAdd (x y : FiniteDecimal) : (x.exactAdd y).toRat = x.toRat + y.toRat := by
  rw [← alignedTo_mul (x := x) (Int.min_le_left x.exponent y.exponent),
    ← alignedTo_mul (x := y) (Int.min_le_right x.exponent y.exponent), ← add_mul, toRat,
    signed_exactAdd]
  push_cast
  rfl

/-- The value of an exact product is the product of the values. -/
theorem toRat_exactMul (x y : FiniteDecimal) : (x.exactMul y).toRat = x.toRat * y.toRat := by
  have product : (x.exactMul y).signed = x.signed * y.signed := by
    unfold exactMul signed
    cases x.negative <;> cases y.negative <;> simp
  rw [toRat, product, toRat, toRat]
  simp only [exactMul]
  rw [tenPow_add]
  push_cast
  ring

/-- The order of decimals is the order of their values. -/
theorem order_eq_compare (x y : FiniteDecimal) : x.order y = compare x.toRat y.toRat := by
  have unit := tenPow_pos (min x.exponent y.exponent)
  rw [← alignedTo_mul (x := x) (Int.min_le_left x.exponent y.exponent),
    ← alignedTo_mul (x := y) (Int.min_le_right x.exponent y.exponent), order]
  rcases lt_trichotomy (x.alignedTo (min x.exponent y.exponent))
    (y.alignedTo (min x.exponent y.exponent)) with less | same | more
  · rw [compare_lt_iff_lt.mpr less, eq_comm, compare_lt_iff_lt]
    exact mul_lt_mul_of_pos_right (Int.cast_lt.mpr less) unit
  · rw [same, compare_eq_iff_eq.mpr rfl, eq_comm, compare_eq_iff_eq]
  · rw [compare_gt_iff_gt.mpr more, eq_comm, compare_gt_iff_gt]
    exact mul_lt_mul_of_pos_right (Int.cast_lt.mpr more) unit

/-- The exponent of the leading digit of a value, from its first digits. -/
theorem log_eq_of_digits {n : ℕ} {e : ℤ} {r : ℚ} (hn : 0 < n) (least : n * 10 ^ e ≤ r)
    (most : r < (n + 1) * 10 ^ e) : Int.log 10 r = e + Digits.count n - 1 := by
  have unit := tenPow_pos e
  have counted := Digits.count_pos n
  have positive : 0 < r := (mul_pos (Nat.cast_pos.mpr hn) unit).trans_le least
  have lower : (10 : ℚ) ^ (Digits.count n - 1) ≤ n := by exact_mod_cast Digits.tenTo_count_le hn
  have upper : (n : ℚ) + 1 ≤ 10 ^ Digits.count n := by exact_mod_cast Digits.lt_tenTo_count n
  refine le_antisymm ?_ ?_
  · have below : r < ((10 : ℕ) : ℚ) ^ (e + Digits.count n) := by
      rw [Nat.cast_ofNat, add_comm, tenPow_add, zpow_natCast]
      exact most.trans_le (mul_le_mul_of_nonneg_right upper unit.le)
    have := (Int.lt_zpow_iff_log_lt (by norm_num) positive).mp below
    omega
  · refine (Int.zpow_le_iff_le_log (by norm_num) positive).mp ?_
    have exponent : e + Digits.count n - 1 = ((Digits.count n - 1 : ℕ) : ℤ) + e := by omega
    rw [exponent, Nat.cast_ofNat, tenPow_add, zpow_natCast]
    exact (mul_le_mul_of_nonneg_right lower unit.le).trans least

/-- The exponent of the leading digit is the logarithm of the value. -/
theorem log_toRat (h : x.coefficient ≠ 0) : Int.log 10 |x.toRat| = x.leadingExponent := by
  rw [abs_toRat]
  refine log_eq_of_digits (Nat.pos_of_ne_zero h) le_rfl ?_
  exact mul_lt_mul_of_pos_right (lt_add_one _) (tenPow_pos _)

end FiniteDecimal

end FuzzyCalc
