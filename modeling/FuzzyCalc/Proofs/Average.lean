import FuzzyCalc.Proofs.Exactness
import FuzzyCalc.Proofs.OperatorValues

/-!
# How far an average strays

Half of the sum of two numbers lies between them. But the sum is rounded before it is halved, and
half of the rounded sum may lie outside. It is not rounded again then, because it begins one place
below the sum. So an average is at least the minimum exactly if the rounded sum is at least twice the
minimum, likewise for the maximum, and it strays by no more than a fifth of a unit of the last digit
of the sum.
-/

namespace FuzzyCalc

open FiniteDecimal

namespace Precision

variable {p : Precision} {r s g sum v : ℚ}

/-! ### The digits of a sum -/

/-- A sum of numbers of few digits is exact if it has no more digits before the point than both of
them. -/
theorem roundValue_add_eq (digits : p.HasDigits r) (digits' : p.HasDigits s)
    (least : 10 ^ Int.log 10 |r + s| ≤ r) (least' : 10 ^ Int.log 10 |r + s| ≤ s)
    (h : p.roundValue (r + s) = .ok sum) : sum = r + s := by
  have unit := tenPow_pos (Int.log 10 |r + s|)
  by_cases full : r + s < 10 ^ minExponent
  · exact eq_of_roundValue (by linarith) full h
  · obtain ⟨n, hn⟩ := digits.exists_mul least
    obtain ⟨m, hm⟩ := digits'.exists_mul least'
    rw [eq_nearest_of_roundValue h, nearest_eq_self_iff, gridExponent_of_le (not_lt.mp full)]
    refine ⟨n + m, ?_⟩
    push_cast
    linarith

/-- Half of a rounded number ends one place below its last digit. -/
theorem exists_half_nearest (p : Precision) (r : ℚ) :
    ∃ n : ℤ, p.nearest r / 2 = n * 10 ^ (p.gridExponent r - 1) := by
  obtain ⟨n, hn⟩ := exists_half_multiple (sub_one_lt (p.gridExponent r))
    (halfEven (r / 10 ^ p.gridExponent r))
  refine ⟨n, ?_⟩
  rw [← hn, nearest]
  ring

/-- Half of a rounded number has few digits up to the power of ten of the leading digit of that
number. -/
theorem hasDigits_half_nearest (full : 10 ^ minExponent ≤ r)
    (most : p.nearest r / 2 ≤ 10 ^ Int.log 10 |r|) : p.HasDigits (p.nearest r / 2) := by
  have nonneg := nearest_nonneg (p := p) ((tenPow_pos _).trans_le full).le
  have half : 0 ≤ p.nearest r / 2 := by linarith
  have top : p.gridExponent r - 1 + p.digits = Int.log 10 |r| := by
    rw [gridExponent_of_le full]
    omega
  obtain ⟨n, hn⟩ := p.exists_half_nearest r
  rw [hn] at half
  rw [hn, ← top] at most
  rw [hn]
  exact hasDigits_of_le half most

/-! ### Half of a rounded sum -/

/-- The exact half of a sum lies between the sides. -/
theorem ne_add_of_outside (outside : sum / 2 < min r s ∨ max r s < sum / 2) : sum ≠ r + s := by
  rintro rfl
  have total := min_add_max r s
  have order := min_le_max (a := r) (b := s)
  rcases outside with below | above
  · linarith
  · linarith

/-- Half of a rounded sum that does not lie between the sides is no more than the power of ten of
the leading digit of the exact sum: one side lies below that. -/
theorem half_le_of_min_lt (full : 10 ^ minExponent ≤ r + s)
    (outside : p.nearest (r + s) / 2 < min r s ∨ max r s < p.nearest (r + s) / 2)
    (less : min r s < 10 ^ Int.log 10 |r + s|) :
    p.nearest (r + s) / 2 ≤ 10 ^ Int.log 10 |r + s| := by
  have total := min_add_max r s
  rcases outside with below | above
  · linarith
  · -- In units of the last digit, twice the power of ten is whole, and so is the sum.
    have digits := p.digits_pos
    have exponent := gridExponent_of_le (p := p) full
    obtain ⟨n, hn⟩ := exists_multiple (d := p.gridExponent (r + s)) (e := Int.log 10 |r + s|)
      (by omega) 1
    rw [Int.cast_one, one_mul] at hn
    have unit := tenPow_pos (p.gridExponent (r + s))
    have moved := (abs_le.mp (abs_nearest_sub_le p (r + s))).2
    have near : p.nearest (r + s) < (2 * n + 1 : ℤ) * 10 ^ p.gridExponent (r + s) := by
      push_cast
      linarith
    have whole := Int.cast_lt.mp (lt_of_mul_lt_mul_right near unit.le)
    have most := mul_le_mul_of_nonneg_right
      (Int.cast_le (R := ℚ) |>.mpr (Int.lt_add_one_iff.mp whole)) unit.le
    rw [← nearest] at most
    push_cast at most
    linarith

/-- Half of a rounded sum that does not lie between the sides has few digits. -/
theorem hasDigits_half_sum (digits : p.HasDigits r) (digits' : p.HasDigits s) (hr : 0 ≤ r)
    (hs : 0 ≤ s) (h : p.roundValue (r + s) = .ok sum)
    (outside : sum / 2 < min r s ∨ max r s < sum / 2) : p.HasDigits (sum / 2) := by
  have inexact := ne_add_of_outside outside
  have full : 10 ^ minExponent ≤ r + s := by
    by_contra! small
    exact inexact (eq_of_roundValue (add_nonneg hr hs) small h)
  have less : min r s < 10 ^ Int.log 10 |r + s| := by
    by_contra! least
    obtain ⟨first, second⟩ := le_min_iff.mp least
    exact inexact (roundValue_add_eq digits digits' first second h)
  obtain rfl := eq_nearest_of_roundValue h
  exact hasDigits_half_nearest full (half_le_of_min_lt full outside less)

/-- Half of a rounded number that is no more than a quarter of a unit away from a number of few
digits, which may begin one place lower, is no more than a fifth of a unit away. -/
theorem abs_half_nearest_sub_le (hg : p.HasDigits g) (full : 10 ^ minExponent ≤ r)
    (least : 10 ^ (Int.log 10 |r| - 1) ≤ g)
    (near : |p.nearest r / 2 - g| ≤ 10 ^ p.gridExponent r / 4) :
    |p.nearest r / 2 - g| ≤ 10 ^ p.gridExponent r / 5 := by
  obtain ⟨n, rfl⟩ := hg.exists_mul least
  obtain ⟨m, hm⟩ := p.exists_half_nearest r
  have lower : Int.log 10 |r| - 1 + 1 - p.digits = p.gridExponent r - 1 := by
    rw [gridExponent_of_le full]
    omega
  have unit := tenPow_pos (p.gridExponent r - 1)
  -- The distance is two and a half units one place lower at most, and whole.
  have distance : |p.nearest r / 2 - n * 10 ^ (Int.log 10 |r| - 1 + 1 - p.digits)| =
      |((m - n : ℤ) : ℚ)| * 10 ^ (p.gridExponent r - 1) := by
    rw [hm, lower, ← sub_mul, abs_mul, abs_of_pos unit, Int.cast_sub]
  rw [distance, tenPow_eq_ten_mul (p.gridExponent r)] at near ⊢
  have less : |((m - n : ℤ) : ℚ)| < 3 := by
    by_contra! large
    linarith [mul_le_mul_of_nonneg_right large unit.le]
  have whole : |m - n| < 3 := by exact_mod_cast less
  have two : |((m - n : ℤ) : ℚ)| ≤ 2 := by exact_mod_cast Int.lt_add_one_iff.mp whole
  linarith [mul_le_mul_of_nonneg_right two unit.le]

/-- Half of a rounded sum lies outside of the sides by no more than a fifth of a unit. -/
theorem half_sum_strays (digits : p.HasDigits r) (digits' : p.HasDigits s)
    (h : p.roundValue (r + s) = .ok sum) (nonneg : 0 ≤ r + s) :
    min r s ≤ sum / 2 + 10 ^ p.gridExponent (r + s) / 5 ∧
      sum / 2 ≤ max r s + 10 ^ p.gridExponent (r + s) / 5 := by
  have total := min_add_max r s
  have order := min_le_max (a := r) (b := s)
  have unit := tenPow_pos (p.gridExponent (r + s))
  by_cases full : r + s < 10 ^ minExponent
  · rw [eq_of_roundValue nonneg full h]
    constructor <;> linarith
  · rw [not_lt] at full
    obtain rfl := eq_nearest_of_roundValue h
    obtain ⟨least, most⟩ := abs_le.mp (abs_nearest_sub_le p (r + s))
    have digits_pos := p.digits_pos
    have exponent := gridExponent_of_le (p := p) full
    have leading := tenPow_log_le ((tenPow_pos _).trans_le full)
    have coarse : (10 : ℚ) ^ p.gridExponent (r + s) ≤ 10 ^ Int.log 10 |r + s| :=
      tenPow_le (by omega)
    have lower := tenPow_eq_ten_mul (Int.log 10 |r + s|)
    have positive := tenPow_pos (Int.log 10 |r + s| - 1)
    constructor
    · by_contra! below
      have near := abs_half_nearest_sub_le (digits.min digits') full (by linarith)
        (abs_le.mpr ⟨by linarith, by linarith⟩)
      linarith [(abs_le.mp near).1]
    · by_contra! above
      have near := abs_half_nearest_sub_le (digits.max digits') full (by linarith)
        (abs_le.mpr ⟨by linarith, by linarith⟩)
      linarith [(abs_le.mp near).2]

/-! ### The average of values -/

/-- An average that succeeds is at least the smaller side exactly if the rounded sum is at least
twice that, likewise for the larger side; and it strays by no more than a fifth of a unit. -/
theorem averageValue_bounds (digits : p.HasDigits r) (digits' : p.HasDigits s) (hr : 0 ≤ r)
    (hs : 0 ≤ s) (h : p.averageValue r s = .ok v) :
    ∃ sum, p.roundValue (r + s) = .ok sum ∧
      (min r s ≤ v ↔ 2 * min r s ≤ sum) ∧ (v ≤ max r s ↔ sum ≤ 2 * max r s) ∧
      min r s ≤ v + 10 ^ p.gridExponent (r + s) / 5 ∧
      v ≤ max r s + 10 ^ p.gridExponent (r + s) / 5 := by
  obtain ⟨sum, hsum, hv⟩ := bind_eq_ok.mp h
  have least : 0 ≤ sum := by
    rw [eq_nearest_of_roundValue hsum]
    exact nearest_nonneg (add_nonneg hr hs)
  have half : 0 ≤ sum / 2 := by linarith
  have exact (outside : sum / 2 < min r s ∨ max r s < sum / 2) : v = sum / 2 :=
    (hasDigits_half_sum digits digits' hr hs hsum outside).roundValue_eq half hv
  have above (inside : min r s ≤ sum / 2) : min r s ≤ v :=
    (digits.min digits').le_roundValue half inside hv
  have below (inside : sum / 2 ≤ max r s) : v ≤ max r s :=
    (digits.max digits').roundValue_le half inside hv
  obtain ⟨near, near'⟩ := half_sum_strays digits digits' hsum (add_nonneg hr hs)
  have unit := tenPow_pos (p.gridExponent (r + s))
  refine ⟨sum, hsum, ⟨?_, ?_⟩, ⟨?_, ?_⟩, ?_, ?_⟩
  · intro inside
    by_contra! outside
    have same := exact (.inl (by linarith))
    linarith
  · intro inside
    exact above (by linarith)
  · intro inside
    by_contra! outside
    have same := exact (.inr (by linarith))
    linarith
  · intro inside
    exact below (by linarith)
  · rcases le_or_gt (min r s) (sum / 2) with inside | outside
    · linarith [above inside]
    · rwa [exact (.inl outside)]
  · rcases le_or_gt (sum / 2) (max r s) with inside | outside
    · linarith [below inside]
    · rwa [exact (.inr outside)]

end Precision

/-! ### The average of numbers -/

/-- Of two numbers of few digits that are not below zero, an average that succeeds is at least the
minimum exactly if the rounded sum is at least twice the minimum, so whenever the sum is not rounded
down; and at most the maximum exactly if the rounded sum is at most twice the maximum, so whenever
the sum is not rounded up. It strays by no more than a fifth of a unit of the last digit of the sum.
The average of equal numbers is their value exactly if the sum is exact. -/
theorem BinaryOp.average_strays (p : Precision) (x y : FiniteDecimal) (v : Decimal)
    (hx : 0 ≤ x.toRat) (hy : 0 ≤ y.toRat)
    (digits : p.HasDigits x.toRat) (digits' : p.HasDigits y.toRat)
    (h : BinaryOp.average.apply p (.finite x) (.finite y) = .ok v) :
    ∃ sum least most result : FiniteDecimal,
      BinaryOp.sum.apply p (.finite x) (.finite y) = .ok (.finite sum) ∧
      BinaryOp.minimum.apply p (.finite x) (.finite y) = .ok (.finite least) ∧
      BinaryOp.maximum.apply p (.finite x) (.finite y) = .ok (.finite most) ∧
      v = .finite result ∧
      (least.toRat ≤ result.toRat ↔ 2 * least.toRat ≤ sum.toRat) ∧
      (result.toRat ≤ most.toRat ↔ sum.toRat ≤ 2 * most.toRat) ∧
      (x.toRat + y.toRat ≤ sum.toRat → least.toRat ≤ result.toRat) ∧
      (sum.toRat ≤ x.toRat + y.toRat → result.toRat ≤ most.toRat) ∧
      least.toRat ≤ result.toRat + 10 ^ p.gridExponent (x.toRat + y.toRat) / 5 ∧
      result.toRat ≤ most.toRat + 10 ^ p.gridExponent (x.toRat + y.toRat) / 5 ∧
      (x.toRat = y.toRat →
        (result.toRat = x.toRat ↔ sum.toRat = x.toRat + y.toRat)) := by
  have valueX := Decimal.hasValue_finite x
  have valueY := Decimal.hasValue_finite y
  obtain ⟨_, ⟨result, rfl, rfl⟩, hresult⟩ :=
    exists_value_of_agree (agree_average valueX valueY) h
  obtain ⟨_, hsum, least_iff, most_iff, near, near'⟩ :=
    Precision.averageValue_bounds digits digits' hx hy hresult
  have total := agree_sum (p := p) valueX valueY
  rw [hsum] at total
  obtain ⟨_, applied, sum, rfl, rfl⟩ := total.exists_left
  obtain ⟨_, minimum, least, rfl, hleast⟩ := exists_minimum p valueX valueY
  obtain ⟨_, maximum, most, rfl, hmost⟩ := exists_maximum p valueX valueY
  have both := min_add_max x.toRat y.toRat
  have order := min_le_max (a := x.toRat) (b := y.toRat)
  rw [← hleast, ← hmost] at both order
  rw [← hleast] at least_iff near
  rw [← hmost] at most_iff near'
  refine ⟨sum, least, most, result, applied, minimum, maximum, rfl, least_iff, most_iff, ?_, ?_,
    near, near', ?_⟩
  · intro up
    exact least_iff.mpr (by linarith)
  · intro down
    exact most_iff.mpr (by linarith)
  · intro same
    rw [← same, min_self] at hleast
    rw [← same, max_self] at hmost
    rw [hleast] at least_iff
    rw [hmost] at most_iff
    rw [← same, ← two_mul, le_antisymm_iff, le_antisymm_iff, least_iff, most_iff]

/-- With two digits 0.67 and 0.67 add up to 1.3. Half of that falls short by all of a fifth of a
tenth. -/
theorem BinaryOp.average_strays_two_thirds :
    let p : Precision := ⟨2, by decide⟩
    let x : FiniteDecimal := ⟨false, 67, -2⟩
    let half : FiniteDecimal := ⟨false, 65, -2⟩
    0 ≤ x.toRat ∧ p.HasDigits x.toRat ∧
      BinaryOp.average.apply p (.finite x) (.finite x) = .ok (.finite half) ∧
      p.gridExponent (x.toRat + x.toRat) = -1 ∧
      x.toRat ≤ half.toRat + 10 ^ p.gridExponent (x.toRat + x.toRat) / 5 ∧
      half.toRat + 10 ^ (-1 : ℤ) / 5 = x.toRat := by
  intro p x half
  have value : x.toRat = 67 / 100 := by norm_num [FiniteDecimal.toRat, signed, x]
  have value' : half.toRat = 65 / 100 := by norm_num [FiniteDecimal.toRat, signed, half]
  have digits : p.HasDigits x.toRat := Precision.hasDigits_toRat (by decide)
  have nonneg : 0 ≤ x.toRat := by norm_num [value]
  have applied : BinaryOp.average.apply p (.finite x) (.finite x) = .ok (.finite half) := by
    decide +kernel
  have grid : p.gridExponent (x.toRat + x.toRat) = -1 :=
    Precision.gridExponent_of_digit (by norm_num [value]) (by norm_num [value])
  obtain ⟨sum, least, most, result, -, hleast, -, heq, -, -, -, -, short, -⟩ :=
    BinaryOp.average_strays p x x _ nonneg nonneg digits digits applied
  cases heq
  have minimum : BinaryOp.minimum.apply p (.finite x) (.finite x) = .ok (.finite x) := by
    decide +kernel
  cases hleast.symm.trans minimum
  refine ⟨nonneg, digits, applied, grid, short, ?_⟩
  norm_num [value, value']

/-- The law fails for two thirds: with 28 digits the average of the number with itself is below it,
though it is its own minimum. -/
theorem BinaryOp.average_two_thirds_below_minimum :
    let thirds : FiniteDecimal := ⟨false, 6666666666666666666666666667, -28⟩
    let below : Decimal := .finite ⟨false, 6666666666666666666666666665, -28⟩
    0 ≤ thirds.toRat ∧ Digits.count thirds.coefficient ≤ Precision.standard.digits ∧
      BinaryOp.average.apply .standard (.finite thirds) (.finite thirds) = .ok below ∧
      BinaryOp.minimum.apply .standard (.finite thirds) (.finite thirds) =
        .ok (.finite thirds) ∧
      BinaryOp.lessOrEqual.apply .standard (.finite thirds) below = .ok .zero ∧
      BinaryOp.equal.apply .standard below (.finite thirds) = .ok .zero := by
  intro thirds below
  refine ⟨toRat_nonneg rfl, ?_, ?_, ?_, ?_, ?_⟩
  all_goals decide +kernel

end FuzzyCalc
