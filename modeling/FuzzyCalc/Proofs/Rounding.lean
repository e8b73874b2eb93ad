import Mathlib.Tactic.SplitIfs
import FuzzyCalc.Decimal.Digits.Lemmas
import FuzzyCalc.Decimal.Rounding

/-!
# What rounding keeps

A rounded number is the exact one cut to the digits of the precision, if it is in range. Rounding
keeps the sign, and no number but zero is rounded to zero: what would be is refused instead.
-/

namespace FuzzyCalc

/-- Rounding up or down gives at least the quotient. -/
theorem div_le_roundHalfEven (n d : Nat) : n / d ≤ roundHalfEven n d := by
  unfold roundHalfEven
  dsimp only
  split <;> omega

/-- Rounding up or down gives at most one more than the quotient. -/
theorem roundHalfEven_le (n d : Nat) : roundHalfEven n d ≤ n / d + 1 := by
  unfold roundHalfEven
  dsimp only
  split <;> omega

namespace Digits

/-- A number of more than one digit is at least ten. -/
theorem ten_le_of_one_lt_count {n : Nat} (h : 1 < count n) : 10 ≤ n := by
  have positive : 0 < n := by
    apply Nat.pos_of_ne_zero
    rintro rfl
    exact absurd h (by decide)
  calc 10 = tenTo 1 := rfl
    _ ≤ tenTo (count n - 1) := tenTo_le_tenTo (by omega)
    _ ≤ n := tenTo_count_le positive

/-- A number below a power of ten has no more digits than that has zeros. -/
theorem count_le_of_lt {n k : Nat} (hk : 0 < k) (h : n < tenTo k) : count n ≤ k := by
  rcases Nat.eq_zero_or_pos n with rfl | positive
  · exact hk
  · have least := tenTo_count_le positive
    exact Nat.le_of_not_lt fun longer ↦ by
      have higher : tenTo k ≤ tenTo (count n - 1) := tenTo_le_tenTo (by omega)
      omega

end Digits

namespace FiniteDecimal

variable {p : Precision} {x y : FiniteDecimal}

/-- What the last digit counts after rounding, as a multiple of what it counted before. -/
def roundingUnit (p : Precision) (x : FiniteDecimal) : Nat :=
  Digits.tenTo (x.roundedExponent p - x.exponent).toNat

/-- A unit is not zero. -/
theorem roundingUnit_pos (p : Precision) (x : FiniteDecimal) : 0 < x.roundingUnit p :=
  Digits.tenTo_pos _

/-- The nearest number with the digits of the precision, whether in range or not. -/
def nearest (p : Precision) (x : FiniteDecimal) : FiniteDecimal :=
  let c := roundHalfEven x.coefficient (x.roundingUnit p)
  if p.digits < Digits.count c then ⟨x.negative, c / 10, x.roundedExponent p + 1⟩
  else ⟨x.negative, c, x.roundedExponent p⟩

/-- A zero is moved into range. -/
theorem round_zero (h : x.coefficient = 0) :
    x.round p = .ok { x with exponent := max p.leastExponent (min x.exponent maxExponent) } := by
  rw [round, if_pos (by simpa [isZero] using h)]

/-- Any other number is rounded to the nearest, if that is in range and keeps what it must. -/
theorem round_of_ne_zero (h : x.coefficient ≠ 0) :
    x.round p =
      if x.leadingExponent < p.leastExponent then .error .underflow
      else if maxExponent < x.leadingExponent then .error .overflow
      else if x.leadingExponent < minExponent ∧ x.coefficient % x.roundingUnit p ≠ 0 then
        .error .underflow
      else if maxExponent < (x.nearest p).leadingExponent then .error .overflow
      else .ok (x.nearest p) := by
  rw [round, if_neg (by simpa [isZero] using h)]
  rfl

/-- What rounding does: a zero is moved into range; any other number is rounded to the nearest, if
it is in range before and after, and if it is exact below the smallest exponent of full digits. -/
theorem round_cases (h : x.round p = .ok y) :
    (x.coefficient = 0 ∧
      y = { x with exponent := max p.leastExponent (min x.exponent maxExponent) }) ∨
    (x.coefficient ≠ 0 ∧ p.leastExponent ≤ x.leadingExponent ∧ x.leadingExponent ≤ maxExponent ∧
      (x.leadingExponent < minExponent → x.coefficient % x.roundingUnit p = 0) ∧
      y = x.nearest p ∧ y.leadingExponent ≤ maxExponent) := by
  by_cases hx : x.coefficient = 0
  · rw [round_zero hx] at h
    exact .inl ⟨hx, (Except.ok.inj h).symm⟩
  · rw [round_of_ne_zero hx] at h
    split_ifs at h with hleast hmax hexact hrange
    obtain rfl := (Except.ok.inj h).symm
    refine .inr ⟨hx, by omega, by omega, fun hsmall ↦ ?_, rfl, by omega⟩
    exact Decidable.not_not.mp (not_and.mp hexact hsmall)

/-- A number within range has no fewer digits than are rounded off. -/
theorem roundingUnit_le_coefficient (hx : x.coefficient ≠ 0)
    (hexact : x.leadingExponent < minExponent → x.coefficient % x.roundingUnit p = 0) :
    x.roundingUnit p ≤ x.coefficient := by
  have positive : 0 < x.coefficient := Nat.pos_of_ne_zero hx
  by_cases hsmall : x.leadingExponent < minExponent
  · exact Nat.le_of_dvd positive (Nat.dvd_of_mod_eq_zero (hexact hsmall))
  · refine Nat.le_trans (Digits.tenTo_le_tenTo ?_) (Digits.tenTo_count_le positive)
    have digits := p.digits_pos
    have counted := Digits.count_pos x.coefficient
    unfold roundedExponent Precision.leastExponent leadingExponent at *
    omega

/-- Rounding keeps the sign. -/
theorem negative_of_round (h : x.round p = .ok y) : y.negative = x.negative := by
  rcases round_cases h with ⟨-, rfl⟩ | ⟨-, -, -, -, rfl, -⟩
  · rfl
  · unfold nearest
    dsimp only
    split <;> rfl

/-- The nearest number in range is zero only for zero. -/
theorem coefficient_nearest_ne_zero (hx : x.coefficient ≠ 0)
    (hexact : x.leadingExponent < minExponent → x.coefficient % x.roundingUnit p = 0) :
    (x.nearest p).coefficient ≠ 0 := by
  have unit := roundingUnit_pos p x
  have quotient : 0 < x.coefficient / x.roundingUnit p :=
    Nat.div_pos (roundingUnit_le_coefficient hx hexact) unit
  have rounded := div_le_roundHalfEven x.coefficient (x.roundingUnit p)
  unfold nearest
  dsimp only
  split
  · next carried =>
    have digits := p.digits_pos
    have large := Digits.ten_le_of_one_lt_count (Nat.lt_of_le_of_lt digits carried)
    dsimp only
    omega
  · dsimp only
    omega

/-- Only zero is rounded to zero. -/
theorem coefficient_eq_zero_of_round (h : x.round p = .ok y) :
    y.coefficient = 0 ↔ x.coefficient = 0 := by
  rcases round_cases h with ⟨hx, rfl⟩ | ⟨hx, -, -, hexact, rfl, -⟩
  · exact Iff.rfl
  · exact iff_of_false (coefficient_nearest_ne_zero hx hexact) hx

end FiniteDecimal

end FuzzyCalc
