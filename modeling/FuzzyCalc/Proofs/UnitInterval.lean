import FuzzyCalc.Proofs.Exactness
import FuzzyCalc.Proofs.OperatorValues

/-!
# Operators on truth values

Truth values lie between zero and one. Of two truth values every operator but the sum, the quotient
and the power gives a truth value again, rounded as it is, and all that can go wrong is that digits
are lost close to zero. The disjunction needs two digits for that: it is rounded three times, and
its upper bound holds because at worst half a unit more than one is left, which is rounded to one as
the even neighbour.
-/

namespace FuzzyCalc

open FiniteDecimal

namespace Precision

variable {p : Precision} {r s g : ℚ}

/-! ### Numbers of one digit -/

/-- Numbers of one digit have the digits of every precision. -/
theorem represents_digit {n : ℤ} (h : |n| < 10) : p.Represents n := by
  refine represents_intCast (h.trans_le ?_)
  exact le_self_pow₀ (by norm_num) p.digits_pos.ne'

/-- One has the digits of every precision. -/
theorem represents_one : p.Represents 1 := by
  have digit := represents_digit (p := p) (n := 1) (by decide)
  rwa [Int.cast_one] at digit

/-- Two has the digits of every precision. -/
theorem represents_two : p.Represents 2 := by
  have digit := represents_digit (p := p) (n := 2) (by decide)
  rwa [Int.cast_ofNat] at digit

/-! ### Rounding truth values -/

/-- An outcome between bounds, unless digits were lost close to zero. -/
inductive Within (g : ℚ) : Except Condition ℚ → Prop
  /-- A value between zero and the bound. -/
  | value {r : ℚ} (least : 0 ≤ r) (most : r ≤ g) : Within g (.ok r)
  /-- Digits were lost. -/
  | underflow : Within g (.error .underflow)

/-- Rounding stays below two. -/
theorem roundValue_le_two (hr : 0 ≤ r) (h : r ≤ 2) :
    (p.roundValue r = .ok (p.nearest r) ∧ 0 ≤ p.nearest r ∧ p.nearest r ≤ 2) ∨
      p.roundValue r = .error .underflow :=
  roundValue_le hr h represents_two (by rw [log_eq_zero (by norm_num) (by norm_num)]; decide)

/-- Rounding stays below one. -/
theorem within_one (hr : 0 ≤ r) (h : r ≤ 1) : Within 1 (p.roundValue r) := by
  rcases roundValue_le hr h (represents_one (p := p)) (by rw [Int.log_one_right]; decide) with
    ⟨rounded, least, most⟩ | lost
  · rw [rounded]
    exact .value least most
  · rw [lost]
    exact .underflow

/-! ### The disjunction -/

/-- With two digits or more half a unit above one is rounded to one, which is even. -/
theorem nearest_half_unit_above_one (h : 2 ≤ p.digits) :
    p.nearest (1 + 10 ^ (1 - p.digits : ℤ) / 2) = 1 := by
  have unit := tenPow_pos (1 - p.digits)
  have small : (10 : ℚ) ^ (1 - p.digits : ℤ) ≤ 10 ^ (0 : ℤ) := tenPow_le (by omega)
  rw [zpow_zero] at small
  have grid : p.gridExponent (1 + 10 ^ (1 - p.digits : ℤ) / 2) = 1 - p.digits :=
    gridExponent_of_digit (by linarith) (by linarith)
  have inverse : (10 : ℚ) ^ (p.digits - 1) * 10 ^ (1 - p.digits : ℤ) = 1 := by
    rw [← zpow_natCast, ← tenPow_add, Nat.cast_sub p.digits_pos, Nat.cast_one, sub_add_sub_cancel,
      sub_self, zpow_zero]
  -- In units of the last digit it lies halfway above a power of ten, which is even.
  have scaled : (1 + 10 ^ (1 - p.digits : ℤ) / 2) / 10 ^ (1 - p.digits : ℤ) =
      ((10 ^ (p.digits - 1) : ℤ) : ℚ) + 1 / 2 := by
    rw [div_eq_iff unit.ne', add_mul]
    push_cast
    rw [inverse]
    ring
  have even : (10 : ℤ) ^ (p.digits - 1) % 2 = 0 := by
    obtain ⟨k, hk⟩ : ∃ k, p.digits - 1 = k + 1 := ⟨p.digits - 2, by omega⟩
    rw [hk, pow_succ]
    omega
  rw [nearest, grid, scaled, (isNearestEven_tie _).halfEven_eq, even, add_zero]
  push_cast
  exact inverse

/-- Half a unit below a multiple of the unit, less one, there is a number with as many digits behind
the point as the precision has. -/
theorem represents_half_unit {k : ℤ} (hr : r = k * 10 ^ (1 - p.digits : ℤ))
    (least : 0 ≤ r - 1 - 10 ^ (1 - p.digits : ℤ) / 2)
    (most : r - 1 - 10 ^ (1 - p.digits : ℤ) / 2 < 1) :
    p.Represents (r - 1 - 10 ^ (1 - p.digits : ℤ) / 2) := by
  have inverse := p.tenPow_digits_mul
  have value : r - 1 - 10 ^ (1 - p.digits : ℤ) / 2 =
      ((10 * k - 10 ^ p.digits - 5 : ℤ) : ℚ) * 10 ^ (-p.digits : ℤ) := by
    rw [hr, sub_eq_add_neg 1, tenPow_add, zpow_one]
    push_cast
    rw [sub_mul, sub_mul, inverse]
    ring
  rw [value] at least most ⊢
  exact represents_decimals least most.le

/-- The sum of two truth values less their product is at most half a unit above one if sum and
product have been rounded. -/
theorem nearest_add_sub_nearest_mul_le (hr : 0 ≤ r) (hr' : r ≤ 1) (hs : 0 ≤ s) (hs' : s ≤ 1) :
    p.nearest (r + s) - p.nearest (r * s) ≤ 1 + 10 ^ (1 - p.digits : ℤ) / 2 := by
  have unit := tenPow_pos (1 - p.digits)
  have product := nearest_nonneg (p := p) (mul_nonneg hr hs)
  rcases le_or_gt (r + s) 1 with small | large
  · have sum := nearest_le (add_nonneg hr hs) (represents_one (p := p)) small
    linarith
  · have sum := nearest_le (add_nonneg hr hs) (represents_two (p := p)) (by linarith)
    have grid : p.gridExponent (r + s) = 1 - p.digits :=
      gridExponent_of_digit large.le (by linarith)
    have moved := (abs_le.mp (abs_nearest_sub_le p (r + s))).2
    rw [grid] at moved
    -- The product is not less than the sum less one, and rounding it does not pass this number,
    -- which has the digits of the precision behind the point.
    have exact : r + s - 1 ≤ r * s := by nlinarith
    by_contra! more
    have represented : p.Represents (p.nearest (r + s) - 1 - 10 ^ (1 - p.digits : ℤ) / 2) := by
      obtain ⟨k, hk⟩ : ∃ k : ℤ, p.nearest (r + s) = k * 10 ^ (1 - p.digits : ℤ) :=
        ⟨_, by rw [nearest, grid]⟩
      exact represents_half_unit hk (by linarith) (by linarith)
    have below := le_nearest (mul_nonneg hr hs) represented (by linarith)
    linarith

/-- Averages of truth values are truth values. -/
theorem within_averageValue (hr : 0 ≤ r) (hr' : r ≤ 1) (hs : 0 ≤ s) (hs' : s ≤ 1) :
    Within 1 (p.averageValue r s) := by
  unfold averageValue
  rcases roundValue_le_two (p := p) (add_nonneg hr hs) (by linarith) with
    ⟨sum, least, most⟩ | lost
  · rw [sum]
    exact within_one (by linarith) (by linarith)
  · rw [lost]
    exact .underflow

/-- With two digits or more disjunctions of truth values are truth values. -/
theorem within_disjunctionValue (h : 2 ≤ p.digits) (hr : 0 ≤ r) (hr' : r ≤ 1) (hs : 0 ≤ s)
    (hs' : s ≤ 1) : Within 1 (p.disjunctionValue r s) := by
  have productLeast := mul_nonneg hr hs
  have ordered : r * s ≤ r + s := by nlinarith
  unfold disjunctionValue
  rcases roundValue_le_two (p := p) (add_nonneg hr hs) (by linarith) with
    ⟨sum, -, sumMost⟩ | lost
  · rcases roundValue_le_two (p := p) productLeast (by linarith) with
      ⟨product, productNonneg, -⟩ | lost
    · rw [sum, product]
      change Within 1 (p.roundValue (p.nearest (r + s) - p.nearest (r * s)))
      have least := sub_nonneg.mpr (nearest_mono (p := p) productLeast ordered)
      have most : p.nearest (p.nearest (r + s) - p.nearest (r * s)) ≤ 1 := by
        rw [← nearest_half_unit_above_one h]
        exact nearest_mono least (nearest_add_sub_nearest_mul_le hr hr' hs hs')
      rcases roundValue_le_two (p := p) least (by linarith) with ⟨result, nonneg, -⟩ | lost
      · rw [result]
        exact .value nonneg most
      · rw [lost]
        exact .underflow
    · rw [sum, lost]
      exact .underflow
  · rw [lost]
    exact .underflow

end Precision

/-! ### The operators -/

section

variable {p : Precision} {r s : ℚ}

/-- An answer on values that is a truth value, unless the arithmetic lost digits. -/
def IsTruthAnswer (answer : Except (Option Condition) ℚ) : Prop :=
  ∃ a, Precision.Within 1 a ∧ answer = attemptValue a

/-- Yes and no are truth values. -/
theorem isTruthAnswer_truthValue (yes : Bool) : IsTruthAnswer (.ok (truthValue yes)) := by
  refine ⟨_, .value ?_ ?_, rfl⟩
  · cases yes <;> simp [truthValue]
  · cases yes <;> simp [truthValue]

/-- The binary operators that do not lead out of the truth values: not the sum, the quotient and the
power, and the disjunction only with two digits or more. -/
def BinaryOp.Fuzzy (p : Precision) : BinaryOp → Prop
  | .sum | .quotient | .power => False
  | .disjunction => 2 ≤ p.digits
  | _ => True

/-- Prefix operators make truth values of truth values. -/
theorem PrefixOp.isTruthAnswer (op : PrefixOp) (hr : 0 ≤ r) (hr' : r ≤ 1) :
    IsTruthAnswer (op.onValue p r) := by
  cases op with
  | complement =>
    rw [onValue, if_neg (not_lt.mpr hr')]
    exact ⟨_, Precision.within_one (by linarith) (by linarith), rfl⟩
  | possible => exact isTruthAnswer_truthValue _
  | certain => exact isTruthAnswer_truthValue _

/-- Postfix operators make truth values of truth values. -/
theorem PostfixOp.isTruthAnswer (op : PostfixOp) (hr : 0 ≤ r) (hr' : r ≤ 1) :
    IsTruthAnswer (op.onValue p r) := by
  cases op with
  | percent => exact ⟨_, Precision.within_one (by linarith) (by linarith), rfl⟩

/-- Binary operators on truth values make truth values of them. -/
theorem BinaryOp.isTruthAnswer {op : BinaryOp} (hop : op.Fuzzy p) (h : op ≠ .power) (hr : 0 ≤ r)
    (hr' : r ≤ 1) (hs : 0 ≤ s) (hs' : s ≤ 1) : IsTruthAnswer (op.onValues p h r s) := by
  cases op with
  | sum | quotient | power => exact hop.elim
  | equal | less | more | notEqual | lessOrEqual | moreOrEqual => exact isTruthAnswer_truthValue _
  | product => exact ⟨_, Precision.within_one (mul_nonneg hr hs) (by nlinarith), rfl⟩
  | difference =>
    refine ⟨_, ?_, rfl⟩
    rw [Precision.map_abs_roundValue]
    refine Precision.within_one (abs_nonneg _) (abs_le.mpr ⟨by linarith, by linarith⟩)
  | minimum => exact ⟨_, .value (le_min hr hs) (min_le_of_left_le hr'), rfl⟩
  | maximum => exact ⟨_, .value (le_max_of_le_left hr) (max_le hr' hs'), rfl⟩
  | average => exact ⟨_, Precision.within_averageValue hr hr' hs hs', rfl⟩
  | disjunction =>
    have within := Precision.within_disjunctionValue hop hr hr' hs hs'
    refine ⟨_, within, ?_⟩
    rw [onValues]
    generalize p.disjunctionValue r s = a at within
    cases within with
    | underflow => rfl
    | value least _ => exact if_neg (not_lt.mpr least)

end

end FuzzyCalc
