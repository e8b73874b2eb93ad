import Mathlib.Data.Nat.Cast.Field
import Mathlib.Tactic.FieldSimp
import FuzzyCalc.Proofs.ValueArithmetic

/-!
# Quotients of values

An inexact quotient has no end, and so it is not formed exactly. What is rounded in its place lies
between the same two neighbours, which have more digits than the precision; and all values between
such neighbours are rounded alike. So quotients too are found by rounding the exact value.
-/

namespace FuzzyCalc

open FiniteDecimal

/-- A value lies between two neighbouring multiples of a power of ten and is none of them. -/
def Between (q : ℕ) (e : ℤ) (r : ℚ) : Prop := q * 10 ^ e < r ∧ r < (q + 1) * 10 ^ e

namespace Between

variable {p : Precision} {q : ℕ} {e f : ℤ} {r s : ℚ}

/-- The multiples below the value are those up to the lower neighbour. -/
theorem mul_lt_iff (h : Between q e r) (n : ℤ) : n * 10 ^ e < r ↔ n ≤ q := by
  have unit := (tenPow_pos e).le
  constructor
  · intro less
    by_contra! above
    have next : (q : ℚ) + 1 ≤ n := by exact_mod_cast above
    exact absurd (less.trans h.2) (not_lt.mpr (mul_le_mul_of_nonneg_right next unit))
  · intro le
    have lower : (n : ℚ) ≤ q := by exact_mod_cast le
    exact (mul_le_mul_of_nonneg_right lower unit).trans_lt h.1

/-- The value is no multiple. -/
theorem ne_mul (h : Between q e r) (n : ℤ) : r ≠ n * 10 ^ e := by
  intro heq
  rcases lt_or_ge (q : ℤ) n with above | below
  · have next : (q : ℚ) + 1 ≤ n := by exact_mod_cast above
    have upper := mul_le_mul_of_nonneg_right next (tenPow_pos e).le
    exact absurd (heq ▸ h.2) (not_lt.mpr upper)
  · exact absurd heq ((h.mul_lt_iff n).mpr below).ne'

/-- Two values between the same neighbours are below the same multiples. -/
theorem lt_mul_of_le (hr : Between q e r) (hs : Between q e s) {n : ℤ} (h : r ≤ n * 10 ^ e) :
    s < n * 10 ^ e := by
  have above : ¬ n ≤ q := fun below ↦ absurd h (not_le.mpr ((hr.mul_lt_iff n).mpr below))
  refine lt_of_le_of_ne ?_ (hs.ne_mul n)
  exact not_lt.mp fun less ↦ above ((hs.mul_lt_iff n).mp less)

/-- Two values between the same neighbours are above the same multiples. -/
theorem mul_lt_of_le (hr : Between q e r) (hs : Between q e s) {n : ℤ} (h : n * 10 ^ e ≤ r) :
    n * 10 ^ e < s :=
  (hs.mul_lt_iff n).mpr ((hr.mul_lt_iff n).mp (lt_of_le_of_ne h (hr.ne_mul n).symm))

/-- A value above zero lies between neighbours. -/
theorem pos (h : Between q e r) : 0 < r :=
  (mul_nonneg q.cast_nonneg (tenPow_pos e).le).trans_lt h.1

/-- The leading digit is that of the lower neighbour. -/
theorem log_eq (h : Between q e r) (hq : 0 < q) :
    Int.log 10 |r| = e + Digits.count q - 1 := by
  rw [abs_of_pos h.pos]
  exact log_eq_of_digits hq h.1.le h.2

/-- Between neighbours of more digits than the precision has, the unit of rounding is higher than
theirs. -/
theorem lt_gridExponent (h : Between q e r) (hq : 10 ^ p.digits ≤ q) : e < p.gridExponent r := by
  have digits : p.digits < Digits.count q := by
    have less : Digits.tenTo p.digits < Digits.tenTo (Digits.count q) :=
      lt_of_le_of_lt hq (Digits.lt_tenTo_count q)
    exact (Nat.pow_lt_pow_iff_right (by decide)).mp less
  have leading := h.log_eq (lt_of_lt_of_le (by positivity) hq)
  have grid : Int.log 10 |r| - (p.digits - 1) ≤ p.gridExponent r := le_max_left _ _
  omega

/-- Two values between the same neighbours have the same nearest multiple of a higher power of
ten. -/
theorem halfEven_eq (hr : Between q e r) (hs : Between q e s) (h : e < f) :
    halfEven (r / 10 ^ f) = halfEven (s / 10 ^ f) := by
  have unit := tenPow_pos f
  obtain ⟨near, -⟩ := isNearestEven_halfEven (r / 10 ^ f)
  generalize halfEven (r / 10 ^ f) = n at near
  obtain ⟨lower, hlower⟩ := Precision.exists_half_multiple h (2 * n - 1)
  obtain ⟨upper, hupper⟩ := Precision.exists_half_multiple h (2 * n + 1)
  -- Neither value lies halfway between two integers, so both lie on one side of every half.
  rw [abs_le] at near
  push_cast at hlower hupper
  have below : (lower : ℚ) * 10 ^ e ≤ r := by
    rw [← hlower, ← le_div_iff₀ unit]
    linarith
  have above : r ≤ (upper : ℚ) * 10 ^ e := by
    rw [← hupper, ← div_le_iff₀ unit]
    linarith
  have otherBelow := hr.mul_lt_of_le hs below
  have otherAbove := hr.lt_mul_of_le hs above
  rw [← hlower, ← lt_div_iff₀ unit] at otherBelow
  rw [← hupper, ← div_lt_iff₀ unit] at otherAbove
  have nearer : |s / 10 ^ f - n| < 1 / 2 := by
    rw [abs_lt]
    constructor <;> linarith
  exact (IsNearestEven.halfEven_eq ⟨nearer.le, fun tie ↦ absurd tie nearer.ne⟩).symm

/-- A value between neighbours of more digits than the precision has is not exact. -/
theorem nearest_ne (h : Between q e r) (hq : 10 ^ p.digits ≤ q) : p.nearest r ≠ r := by
  intro exact
  obtain ⟨n, hn⟩ := Precision.nearest_eq_self_iff.mp exact
  obtain ⟨k, hk⟩ := Precision.exists_multiple (h.lt_gridExponent hq).le n
  exact h.ne_mul k (hn.trans hk)

/-- Two values between the same neighbours of more digits than the precision has are rounded
alike. -/
theorem roundValue_eq (hr : Between q e r) (hs : Between q e s) (hq : 10 ^ p.digits ≤ q) :
    p.roundValue r = p.roundValue s := by
  have positive : 0 < q := lt_of_lt_of_le (by positivity) hq
  have logs : Int.log 10 |r| = Int.log 10 |s| := by
    rw [hr.log_eq positive, hs.log_eq positive]
  have grids : p.gridExponent r = p.gridExponent s := by
    rw [Precision.gridExponent, Precision.gridExponent, logs]
  have nearests : p.nearest r = p.nearest s := by
    rw [Precision.nearest, Precision.nearest, ← grids, hr.halfEven_eq hs (hr.lt_gridExponent hq)]
  have inexact := hr.nearest_ne hq
  have otherInexact := hs.nearest_ne hq
  rw [nearests] at inexact
  simp only [Precision.roundValue, hr.pos.ne', hs.pos.ne', logs, nearests, inexact, otherInexact,
    ne_eq, not_false_eq_true]

end Between

namespace FiniteDecimal

variable {p : Precision} {x y z : FiniteDecimal}

/-- Rounding a number gives the rounded value of another one of the same sign if the rounded sizes
are the same. -/
theorem toRat_round_of_abs {r : ℚ} (sign : r = if z.negative then -|r| else |r|)
    (h : p.roundValue |z.toRat| = p.roundValue |r|) :
    toRat <$> z.round p = p.roundValue r := by
  rw [toRat_round, sign, toRat_eq_abs z]
  split
  · rw [Precision.roundValue_neg, Precision.roundValue_neg, h]
  · exact h

/-- The sign of a quotient. -/
theorem toRat_div_eq_abs (x y : FiniteDecimal) :
    x.toRat / y.toRat =
      if x.negative != y.negative then -|x.toRat / y.toRat| else |x.toRat / y.toRat| := by
  rw [abs_div, toRat_eq_abs x, toRat_eq_abs y]
  cases x.negative <;> cases y.negative <;> simp [div_neg, neg_div]

/-- The quotient with its digits shifted, which is divided as natural numbers are. -/
theorem abs_toRat_div (shift : ℕ) (hy : y.coefficient ≠ 0) :
    |x.toRat / y.toRat| =
      ((x.coefficient * Digits.tenTo shift : ℕ) : ℚ) / y.coefficient *
        10 ^ (x.exponent - y.exponent - shift) := by
  have divisor : (y.coefficient : ℚ) ≠ 0 := Nat.cast_ne_zero.mpr hy
  have exponents : (10 : ℚ) ^ x.exponent =
      10 ^ (x.exponent - y.exponent - shift) * 10 ^ shift * 10 ^ y.exponent := by
    rw [← zpow_natCast, ← tenPow_add, ← tenPow_add]
    congr 1
    omega
  have unit := (tenPow_pos y.exponent).ne'
  rw [abs_div, abs_toRat, abs_toRat, exponents]
  push_cast
  rw [Digits.cast_tenTo]
  field_simp

/-- The shift is large enough for more digits than the precision has. -/
theorem digits_le_quotient (p : Precision) {m n : ℕ} (hm : 0 < m) (hn : 0 < n) :
    10 ^ p.digits ≤
      m * Digits.tenTo (Digits.count n + p.digits + 1 - Digits.count m) / n := by
  rw [Nat.le_div_iff_mul_le hn]
  calc 10 ^ p.digits * n ≤ Digits.tenTo p.digits * Digits.tenTo (Digits.count n) :=
        Nat.mul_le_mul_left _ (Digits.lt_tenTo_count n).le
    _ = Digits.tenTo (p.digits + Digits.count n) := (Digits.tenTo_add _ _).symm
    _ ≤ Digits.tenTo (Digits.count m - 1 +
          (Digits.count n + p.digits + 1 - Digits.count m)) := by
        have counted := Digits.count_pos m
        exact Digits.tenTo_le_tenTo (by omega)
    _ ≤ m * Digits.tenTo (Digits.count n + p.digits + 1 - Digits.count m) := by
        rw [Digits.tenTo_add]
        exact Nat.mul_le_mul_right _ (Digits.tenTo_count_le hm)

/-- A quotient that does not come out even lies between two neighbours. -/
theorem between_of_mod_ne_zero {m n : ℕ} (hn : 0 < n) (h : m % n ≠ 0) (e : ℤ) :
    Between (m / n) e ((m : ℚ) / n * 10 ^ e) := by
  have unit := tenPow_pos e
  have divisor : (0 : ℚ) < n := Nat.cast_pos.mpr hn
  have whole := Nat.div_add_mod' m n
  have rest := Nat.mod_lt m hn
  constructor
  · refine mul_lt_mul_of_pos_right ?_ unit
    rw [lt_div_iff₀ divisor]
    exact_mod_cast (show m / n * n < m by omega)
  · refine mul_lt_mul_of_pos_right ?_ unit
    rw [div_lt_iff₀ divisor]
    exact_mod_cast (show m < (m / n + 1) * n by rw [Nat.add_mul]; omega)

/-- A digit behind the others that is not zero puts a number between two neighbours. -/
theorem between_of_digit (q : ℕ) (e : ℤ) :
    Between q e (((10 * q + 1 : ℕ) : ℚ) * 10 ^ (e - 1)) := by
  have unit := tenPow_pos (e - 1)
  constructor
  · rw [tenPow_eq_ten_mul e]
    push_cast
    linarith
  · rw [tenPow_eq_ten_mul e]
    push_cast
    linarith

/-- The value of a quotient is the rounded quotient of the values. -/
theorem toRat_div (p : Precision) (x : FiniteDecimal) (hy : y.coefficient ≠ 0) :
    toRat <$> x.div p y = p.roundValue (x.toRat / y.toRat) := by
  have divisor : ¬ y.isZero = true := by simpa [isZero] using hy
  have positive : 0 < y.coefficient := Nat.pos_of_ne_zero hy
  unfold div
  dsimp only
  rw [if_neg divisor]
  split
  · next zero =>
    have none : x.coefficient = 0 := by simpa [isZero] using zero
    rw [toRat_round, toRat_eq_zero.mpr none, toRat_eq_zero.mpr rfl, zero_div]
  · next dividend =>
    have nonzero : 0 < x.coefficient := by
      simpa [isZero, Nat.pos_iff_ne_zero] using dividend
    have digits := digits_le_quotient p nonzero positive
    generalize Digits.count y.coefficient + p.digits + 1 - Digits.count x.coefficient = shift
      at digits ⊢
    have value := abs_toRat_div (x := x) shift hy
    split
    · next even =>
      refine toRat_round_of_abs (toRat_div_eq_abs x y) (congrArg _ ?_)
      have exact : ((x.coefficient * Digits.tenTo shift : ℕ) : ℚ) / y.coefficient =
          ((x.coefficient * Digits.tenTo shift / y.coefficient : ℕ) : ℚ) :=
        (Nat.cast_div_charZero (Nat.dvd_of_mod_eq_zero even)).symm
      rw [value, exact, abs_toRat, tenPow_add, zpow_natCast, mul_left_comm, mul_comm,
        ← Digits.cast_tenTo, ← Nat.cast_mul, Digits.stripZeros_mul]
    · next uneven =>
      refine toRat_round_of_abs (toRat_div_eq_abs x y) ?_
      have exact := between_of_mod_ne_zero positive uneven (x.exponent - y.exponent - shift)
      rw [← value] at exact
      rw [abs_toRat]
      exact (between_of_digit _ _).roundValue_eq exact digits

end FiniteDecimal

end FuzzyCalc
