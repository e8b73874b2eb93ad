import Mathlib.Algebra.Group.Int.Even
import FuzzyCalc.Proofs.ExactValue
import FuzzyCalc.Proofs.Rounding

/-!
# Rounding as a function of the value

What a number is rounded to depends on its value alone. Around a value the numbers with the digits
of the precision are the multiples of one power of ten, and the value goes to the nearest of them, a
half to the even one. So rounding keeps the order, and it never passes a number that has the digits
of the precision itself.
-/

namespace FuzzyCalc

open FiniteDecimal

/-! ### The nearest integer -/

/-- An integer that is nearest to a number; of two that are equally near, the even one. -/
def IsNearestEven (r : ℚ) (n : ℤ) : Prop := |r - n| ≤ 1 / 2 ∧ (|r - n| = 1 / 2 → Even n)

section

variable {r s : ℚ} {n m : ℤ}

/-- Of two numbers the larger one has no smaller nearest integer. -/
theorem IsNearestEven.le (hn : IsNearestEven r n) (hm : IsNearestEven s m) (h : r ≤ s) :
    n ≤ m := by
  by_contra! less
  have gap : (m : ℚ) + 1 ≤ n := by exact_mod_cast less
  have below := (abs_le.mp hn.1).1
  have above := (abs_le.mp hm.1).2
  -- Both numbers lie halfway between the two integers, of which only one is even.
  have left : |r - n| = 1 / 2 := by
    rw [abs_of_nonpos (by linarith)]
    linarith
  have right : |s - m| = 1 / 2 := by
    rw [abs_of_nonneg (by linarith)]
    linarith
  have neighbours : (n : ℚ) = m + 1 := by linarith
  have next : n = m + 1 := by exact_mod_cast neighbours
  have evenLeft := hn.2 left
  rw [next] at evenLeft
  exact Int.even_add_one.mp evenLeft (hm.2 right)

/-- There is only one. -/
theorem IsNearestEven.unique (hn : IsNearestEven r n) (hm : IsNearestEven r m) : n = m :=
  le_antisymm (hn.le hm le_rfl) (hm.le hn le_rfl)

/-- The other sign gives the opposite integer. -/
theorem IsNearestEven.neg (hn : IsNearestEven r n) : IsNearestEven (-r) (-n) := by
  have distance : |-r - (-n : ℤ)| = |r - n| := by
    rw [← abs_neg]
    push_cast
    congr 1
    ring
  rw [IsNearestEven, distance, even_neg]
  exact hn

/-- An integer is nearest to itself. -/
theorem isNearestEven_intCast (n : ℤ) : IsNearestEven n n := by
  simp [IsNearestEven]

/-- Less than a half above an integer, that integer is nearest. -/
theorem isNearestEven_below_half (n : ℤ) (hr : 0 ≤ r) (h : r < 1 / 2) :
    IsNearestEven (n + r) n := by
  have distance : |n + r - n| = r := by rw [add_sub_cancel_left, abs_of_nonneg hr]
  rw [IsNearestEven, distance]
  exact ⟨h.le, fun tie ↦ absurd tie h.ne⟩

/-- More than a half above an integer, the next one is nearest. -/
theorem isNearestEven_above_half (n : ℤ) (hr : r ≤ 1) (h : 1 / 2 < r) :
    IsNearestEven (n + r) (n + 1) := by
  have next : (n : ℚ) + r = ((n + 1 : ℤ) : ℚ) - (1 - r) := by
    push_cast
    ring
  have distance : |(n : ℚ) + r - (n + 1 : ℤ)| = 1 - r := by
    rw [next, sub_sub_cancel_left, abs_neg, abs_of_nonneg (sub_nonneg.mpr hr)]
  rw [IsNearestEven, distance]
  exact ⟨by linarith, fun tie ↦ absurd tie (by linarith)⟩

/-- A half above an integer, the even one of this and the next is nearest. -/
theorem isNearestEven_tie (n : ℤ) : IsNearestEven (n + 1 / 2) (n + n % 2) := by
  have even : Even (n + n % 2) := by
    rw [Int.even_iff]
    omega
  refine ⟨?_, fun _ ↦ even⟩
  rcases Int.emod_two_eq_zero_or_one n with zero | one
  · rw [zero, add_zero, add_sub_cancel_left, abs_of_pos one_half_pos]
  · rw [one, abs_le]
    push_cast
    constructor <;> linarith

/-- The rounded quotient of natural numbers is nearest to their quotient. -/
theorem isNearestEven_roundHalfEven (n : ℕ) {d : ℕ} (hd : 0 < d) :
    IsNearestEven (n / d) (roundHalfEven n d) := by
  have positive : (0 : ℚ) < d := Nat.cast_pos.mpr hd
  have quotient : (n : ℚ) / d = ((n / d : ℕ) : ℤ) + ((n % d : ℕ) : ℚ) / d := by
    rw [Int.cast_natCast, div_eq_iff positive.ne', add_mul, div_mul_cancel₀ _ positive.ne']
    exact_mod_cast (Nat.div_add_mod' n d).symm
  have rest : ((n % d : ℕ) : ℚ) / d ≤ 1 := by
    rw [div_le_one positive]
    exact_mod_cast (Nat.mod_lt n hd).le
  rw [quotient]
  unfold roundHalfEven
  dsimp only
  split
  · next less =>
    refine isNearestEven_below_half _ (by positivity) ?_
    rw [div_lt_div_iff₀ positive two_pos, one_mul, mul_comm]
    exact_mod_cast Nat.compare_eq_lt.mp less
  · next more =>
    refine isNearestEven_above_half _ rest ?_
    rw [div_lt_div_iff₀ two_pos positive, one_mul, mul_comm]
    exact_mod_cast Nat.compare_eq_gt.mp more
  · next tie =>
    have half : ((n % d : ℕ) : ℚ) / d = 1 / 2 := by
      rw [div_eq_div_iff positive.ne' two_ne_zero, one_mul, mul_comm]
      exact_mod_cast Nat.compare_eq_eq.mp tie
    rw [half]
    exact isNearestEven_tie _

/-- The integer nearest to a number; of two that are equally near, the even one. -/
def halfEven (r : ℚ) : ℤ := r.num.sign * roundHalfEven r.num.natAbs r.den

/-- Every number has a nearest integer. -/
theorem isNearestEven_halfEven (r : ℚ) : IsNearestEven r (halfEven r) := by
  have magnitude := isNearestEven_roundHalfEven r.num.natAbs r.den_pos
  have digits : (r.num.natAbs : ℚ) / r.den = |r| := by
    rw [Rat.abs_def, Rat.divInt_eq_div]
    simp
  rw [digits] at magnitude
  unfold halfEven
  rcases lt_trichotomy r 0 with below | rfl | above
  · rw [Int.sign_eq_neg_one_of_neg (Rat.num_neg.mpr below), neg_one_mul]
    have opposite := magnitude.neg
    rwa [abs_of_neg below, neg_neg] at opposite
  · exact isNearestEven_intCast 0
  · rw [Int.sign_eq_one_of_pos (Rat.num_pos.mpr above), one_mul]
    rwa [abs_of_pos above] at magnitude

/-- The nearest integer is the only one. -/
theorem IsNearestEven.halfEven_eq (h : IsNearestEven r n) : halfEven r = n :=
  (isNearestEven_halfEven r).unique h

/-- An integer is its own nearest integer. -/
@[simp] theorem halfEven_intCast (n : ℤ) : halfEven n = n := (isNearestEven_intCast n).halfEven_eq

/-- The other sign gives the opposite integer. -/
@[simp] theorem halfEven_neg (r : ℚ) : halfEven (-r) = -halfEven r :=
  (isNearestEven_halfEven r).neg.halfEven_eq

/-- The nearest integers keep the order. -/
theorem halfEven_mono (h : r ≤ s) : halfEven r ≤ halfEven s :=
  (isNearestEven_halfEven r).le (isNearestEven_halfEven s) h

end

/-! ### The nearest number of a precision -/

namespace Precision

variable {p : Precision} {r s g : ℚ}

/-- The power of ten of which the numbers with the digits of a precision are multiples, around a
value. -/
def gridExponent (p : Precision) (r : ℚ) : ℤ :=
  max (Int.log 10 |r| - (p.digits - 1)) p.leastExponent

/-- The number with the digits of a precision that is nearest to a value, in range or not. -/
def nearest (p : Precision) (r : ℚ) : ℚ :=
  halfEven (r / 10 ^ p.gridExponent r) * 10 ^ p.gridExponent r

/-- A number that has the digits of a precision: rounding need not change it. -/
def Represents (p : Precision) (g : ℚ) : Prop :=
  ∃ c e : ℤ, |c| < 10 ^ p.digits ∧ p.leastExponent ≤ e ∧ g = c * 10 ^ e

/-- Numbers of opposite sign are rounded alike. -/
@[simp] theorem gridExponent_neg (p : Precision) (r : ℚ) :
    p.gridExponent (-r) = p.gridExponent r := by
  rw [gridExponent, abs_neg, gridExponent]

/-- The sign of a number does not matter for the power of ten around it. -/
@[simp] theorem gridExponent_abs (p : Precision) (r : ℚ) :
    p.gridExponent |r| = p.gridExponent r := by
  rw [gridExponent, abs_abs, gridExponent]

/-- The other sign gives the opposite number. -/
@[simp] theorem nearest_neg (p : Precision) (r : ℚ) : p.nearest (-r) = -p.nearest r := by
  simp [nearest, neg_div]

/-- Zero is rounded to zero. -/
@[simp] theorem nearest_zero (p : Precision) : p.nearest 0 = 0 := by
  have zero : halfEven 0 = 0 := halfEven_intCast 0
  simp [nearest, zero]

/-- Rounding moves a value by half a unit at most. -/
theorem abs_nearest_sub_le (p : Precision) (r : ℚ) :
    |p.nearest r - r| ≤ 10 ^ p.gridExponent r / 2 := by
  have unit := tenPow_pos (p.gridExponent r)
  obtain ⟨near, -⟩ := isNearestEven_halfEven (r / 10 ^ p.gridExponent r)
  have scaled : p.nearest r - r =
      -((r / 10 ^ p.gridExponent r - halfEven (r / 10 ^ p.gridExponent r)) *
        10 ^ p.gridExponent r) := by
    rw [sub_mul, div_mul_cancel₀ _ unit.ne', nearest]
    ring
  rw [scaled, abs_neg, abs_mul, abs_of_pos unit]
  linarith [mul_le_mul_of_nonneg_right near unit.le]

/-- A multiple of the power of ten around a value that is above the value is above what it is
rounded to. -/
theorem nearest_le_mul {n : ℤ} (h : r ≤ n * 10 ^ p.gridExponent r) :
    p.nearest r ≤ n * 10 ^ p.gridExponent r := by
  have unit := tenPow_pos (p.gridExponent r)
  have integers := halfEven_mono ((div_le_iff₀ unit).mpr h)
  rw [halfEven_intCast] at integers
  exact mul_le_mul_of_nonneg_right (Int.cast_le.mpr integers) unit.le

/-- A multiple of the power of ten around a value that is below the value is below what it is
rounded to. -/
theorem mul_le_nearest {n : ℤ} (h : n * 10 ^ p.gridExponent r ≤ r) :
    n * 10 ^ p.gridExponent r ≤ p.nearest r := by
  have unit := tenPow_pos (p.gridExponent r)
  have integers := halfEven_mono ((le_div_iff₀ unit).mpr h)
  rw [halfEven_intCast] at integers
  exact mul_le_mul_of_nonneg_right (Int.cast_le.mpr integers) unit.le

/-- Exactly the multiples of the power of ten around them are not changed. -/
theorem nearest_eq_self_iff : p.nearest r = r ↔ ∃ n : ℤ, r = n * 10 ^ p.gridExponent r := by
  constructor
  · intro h
    exact ⟨_, h.symm⟩
  · rintro ⟨n, h⟩
    refine le_antisymm ?_ ?_
    · exact (nearest_le_mul h.le).trans h.ge
    · exact h.le.trans (mul_le_nearest h.ge)

/-- A multiple of a higher power of ten is one of a lower. -/
theorem exists_multiple {d e : ℤ} (h : d ≤ e) (c : ℤ) :
    ∃ n : ℤ, (c : ℚ) * 10 ^ e = n * 10 ^ d := by
  refine ⟨c * 10 ^ (e - d).toNat, ?_⟩
  rw [tenPow_eq h]
  push_cast
  ring

/-- Halves of multiples of a higher power of ten are multiples of a lower. -/
theorem exists_half_multiple {d e : ℤ} (h : d < e) (n : ℤ) :
    ∃ k : ℤ, (n : ℚ) / 2 * 10 ^ e = k * 10 ^ d := by
  obtain ⟨k, hk⟩ := exists_multiple (d := d) (e := e - 1) (by omega) (5 * n)
  refine ⟨k, ?_⟩
  rw [← hk, tenPow_eq_ten_mul e]
  push_cast
  ring

/-- Above the least exponent the digits of a precision reach down from the leading one. -/
theorem gridExponent_eq (h : p.leastExponent < p.gridExponent r) :
    p.gridExponent r = Int.log 10 |r| - (p.digits - 1) := by
  unfold gridExponent at h ⊢
  omega

/-- A number with the digits of a precision is below the power of ten that has one digit more. -/
theorem mul_tenPow_lt {c e : ℤ} (hc : |c| < 10 ^ p.digits) :
    (c : ℚ) * 10 ^ e < 10 ^ (e + p.digits) := by
  have digits : (c : ℚ) < 10 ^ p.digits := by exact_mod_cast (abs_lt.mp hc).2
  rw [tenPow_add, zpow_natCast, mul_comm (_ ^ e)]
  exact mul_lt_mul_of_pos_right digits (tenPow_pos e)

/-- The power of ten of the leading digit is not above a value. -/
theorem tenPow_log_le (hr : 0 < r) : (10 : ℚ) ^ Int.log 10 |r| ≤ r := by
  rw [abs_of_pos hr]
  exact_mod_cast Int.zpow_log_le_self (by norm_num) hr

/-- The next power of ten is above the value. -/
theorem lt_tenPow_log (hr : 0 < r) : r < (10 : ℚ) ^ (Int.log 10 |r| + 1) := by
  rw [abs_of_pos hr]
  exact_mod_cast Int.lt_zpow_succ_log_self (by norm_num) r

/-- Below a power of ten the leading digit counts a lower one. -/
theorem log_lt_of_lt {e : ℤ} (hr : 0 < r) (h : r < 10 ^ e) : Int.log 10 |r| < e := by
  rw [abs_of_pos hr]
  exact (Int.lt_zpow_iff_log_lt (by norm_num) hr).mp (by exact_mod_cast h)

/-- Rounding up does not pass a number that has the digits of the precision. -/
theorem nearest_le (hr : 0 ≤ r) (hg : p.Represents g) (h : r ≤ g) : p.nearest r ≤ g := by
  rcases hr.eq_or_lt with rfl | positive
  · rwa [nearest_zero]
  · obtain ⟨c, e, hc, he, rfl⟩ := hg
    have fine : p.gridExponent r ≤ e := by
      by_contra! coarse
      have leading := gridExponent_eq (he.trans_lt coarse)
      have below : (10 : ℚ) ^ (e + p.digits) ≤ r :=
        (tenPow_le (by omega)).trans (tenPow_log_le positive)
      exact absurd (below.trans h) (not_le.mpr (mul_tenPow_lt hc))
    obtain ⟨n, hn⟩ := exists_multiple fine c
    rw [hn] at h ⊢
    exact nearest_le_mul h

/-- Rounding down does not pass a number that has the digits of the precision. -/
theorem le_nearest (hr : 0 ≤ r) (hg : p.Represents g) (h : g ≤ r) : g ≤ p.nearest r := by
  rcases hr.eq_or_lt with rfl | positive
  · rwa [nearest_zero]
  · obtain ⟨c, e, hc, he, rfl⟩ := hg
    by_cases fine : p.gridExponent r ≤ e
    · obtain ⟨n, hn⟩ := exists_multiple fine c
      rw [hn] at h ⊢
      exact mul_le_nearest h
    · -- Then the power of ten of the leading digit lies between the two.
      rw [not_le] at fine
      have leading := gridExponent_eq (he.trans_lt fine)
      have digits := p.digits_pos
      obtain ⟨n, hn⟩ := exists_multiple (d := p.gridExponent r) (e := Int.log 10 |r|) (by omega) 1
      have between : (10 : ℚ) ^ Int.log 10 |r| ≤ p.nearest r := by
        have below := tenPow_log_le positive
        rw [Int.cast_one, one_mul] at hn
        rw [hn] at below ⊢
        exact mul_le_nearest below
      exact (mul_tenPow_lt hc).le.trans ((tenPow_le (by omega)).trans between)

/-- A power of ten has the digits of every precision, from the least exponent on. -/
theorem represents_tenPow {e : ℤ} (h : p.leastExponent ≤ e) : p.Represents (10 ^ e) := by
  refine ⟨1, e, ?_, h, by simp⟩
  rw [abs_one]
  exact one_lt_pow₀ (by norm_num) p.digits_pos.ne'

/-- Integers with as many digits as the precision have its digits. -/
theorem represents_intCast {n : ℤ} (h : |n| < 10 ^ p.digits) : p.Represents n := by
  have digits := p.digits_pos
  refine ⟨n, 0, h, ?_, by simp⟩
  unfold leastExponent minExponent
  omega

/-- A number that has the digits of the precision is not changed. -/
theorem nearest_eq_self (hr : 0 ≤ r) (h : p.Represents r) : p.nearest r = r :=
  le_antisymm (nearest_le hr h le_rfl) (le_nearest hr h le_rfl)

/-- Zero has the digits of every precision. -/
theorem represents_zero : p.Represents 0 := by
  have represented := represents_intCast (p := p) (n := 0) (by simp)
  rwa [Int.cast_zero] at represented

/-- What is not below zero is not rounded to below zero. -/
theorem nearest_nonneg (hr : 0 ≤ r) : 0 ≤ p.nearest r := le_nearest hr represents_zero hr

/-- Rounding keeps the order. -/
theorem nearest_mono (hr : 0 ≤ r) (h : r ≤ s) : p.nearest r ≤ p.nearest s := by
  rcases hr.eq_or_lt with rfl | positive
  · rw [nearest_zero]
    exact nearest_nonneg h
  · have logs : Int.log 10 |r| ≤ Int.log 10 |s| :=
      Int.log_mono_right (abs_pos.mpr positive.ne') (abs_le_abs_of_nonneg hr h)
    rcases (show p.gridExponent r ≤ p.gridExponent s by unfold gridExponent; omega).eq_or_lt with
      same | coarser
    · have unit := tenPow_pos (p.gridExponent s)
      rw [nearest, nearest, same]
      exact mul_le_mul_of_nonneg_right
        (Int.cast_le.mpr (halfEven_mono (div_le_div_of_nonneg_right h unit.le))) unit.le
    · -- Then the power of ten of the leading digit of the larger one lies between the two.
      have least : p.leastExponent < p.gridExponent s :=
        (le_max_right _ _).trans_lt coarser
      have leading := gridExponent_eq least
      have digits := p.digits_pos
      have later : Int.log 10 |r| + 1 ≤ Int.log 10 |s| := by
        unfold gridExponent at coarser leading
        omega
      have between : p.Represents (10 ^ Int.log 10 |s|) := represents_tenPow (by omega)
      calc p.nearest r ≤ 10 ^ Int.log 10 |s| :=
            nearest_le hr between ((lt_tenPow_log positive).le.trans (tenPow_le later))
        _ ≤ p.nearest s :=
            le_nearest (hr.trans h) between (tenPow_log_le (positive.trans_le h))

end Precision

end FuzzyCalc
