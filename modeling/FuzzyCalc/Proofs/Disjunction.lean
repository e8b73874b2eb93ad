import FuzzyCalc.Proofs.Exactness
import FuzzyCalc.Proofs.UnitInterval

/-!
# How far a disjunction falls short

The sum of two truth values less their product is at least as large as either of them. But the sum
is rounded before the product is taken from it, and what it loses then is missing in the end: at
most half a unit of the last digit that numbers above one have. So a disjunction is at least as true
as either side if the sum is not rounded down, and a disjunction with something certain is certain
exactly if the sum loses no more than half a unit one place further down.
-/

namespace FuzzyCalc

open FiniteDecimal

namespace Precision

variable {p : Precision} {r s g sum product v : ℚ}

/-! ### Half a unit -/

/-- Half a unit of the last digit that numbers above one have is five units one place further
down. -/
theorem half_unit_eq (p : Precision) :
    (10 : ℚ) ^ (1 - p.digits : ℤ) / 2 = 5 * 10 ^ (-p.digits : ℤ) := by
  rw [sub_eq_add_neg, tenPow_add, zpow_one]
  ring

/-- Less half a unit of the last digit that numbers above one have, a truth value of few digits has
few digits. -/
theorem HasDigits.sub_half_unit (hg : p.HasDigits g) (most : g ≤ 1)
    (least : 10 ^ (1 - p.digits : ℤ) / 2 ≤ g) :
    p.HasDigits (g - 10 ^ (1 - p.digits : ℤ) / 2) := by
  obtain ⟨c, e, hc, rfl⟩ := hg
  rw [half_unit_eq] at least ⊢
  have digits : (c : ℚ) < 10 ^ p.digits := by exact_mod_cast (abs_lt.mp hc).2
  -- Both are multiples of the lower of the two powers of ten.
  rcases le_total e (-p.digits) with finer | coarser
  · obtain ⟨k, hk⟩ := exists_multiple finer 5
    have size := tenPow_pos (-p.digits)
    have difference : (c : ℚ) * 10 ^ e - 5 * 10 ^ (-p.digits : ℤ) = (c - k : ℤ) * 10 ^ e := by
      push_cast at hk ⊢
      rw [hk, sub_mul]
    have positive : (0 : ℚ) < k := by
      apply pos_of_mul_pos_left _ (tenPow_pos e).le
      rw [← hk]
      push_cast
      linarith
    rw [difference]
    apply hasDigits_mul
    · rw [← difference]
      linarith
    · push_cast
      linarith
  · obtain ⟨n, hn⟩ := exists_multiple coarser c
    have unit := tenPow_pos (-p.digits)
    have difference : (c : ℚ) * 10 ^ e - 5 * 10 ^ (-p.digits : ℤ) =
        (n - 5 : ℤ) * 10 ^ (-p.digits : ℤ) := by
      rw [hn]
      push_cast
      ring
    have size : (n : ℚ) ≤ 10 ^ p.digits := by
      rw [hn, ← p.tenPow_digits_mul] at most
      exact le_of_mul_le_mul_right most unit
    rw [difference]
    apply hasDigits_mul
    · rw [← difference]
      linarith
    · push_cast
      linarith

/-- Rounding a number below a power of ten moves it by no more than half a unit of its last
digit. -/
theorem abs_nearest_sub_le_of_lt {e : ℤ} (he : minExponent < e) (hr : 0 ≤ r) (h : r < 10 ^ e) :
    |p.nearest r - r| ≤ 10 ^ (e - p.digits) / 2 := by
  rcases hr.eq_or_lt with rfl | positive
  · have unit := tenPow_pos (e - p.digits)
    rw [nearest_zero, sub_zero, abs_zero]
    linarith
  · have leading := log_lt_of_lt positive h
    have exponent : p.gridExponent r ≤ e - p.digits := by
      unfold gridExponent leastExponent
      omega
    have units := tenPow_le exponent
    have moved := abs_nearest_sub_le p r
    linarith

/-- Half a unit of its last digit below one is rounded to one, which is even. -/
theorem nearest_half_unit_below_one (p : Precision) :
    p.nearest (1 - 10 ^ (-p.digits : ℤ) / 2) = 1 := by
  have unit := tenPow_pos (-p.digits)
  have digits := p.digits_pos
  have small : (10 : ℚ) ^ (-p.digits : ℤ) ≤ 10 ^ (-1 : ℤ) := tenPow_le (by omega)
  rw [zpow_neg_one] at small
  have leading : Int.log 10 |1 - (10 : ℚ) ^ (-p.digits : ℤ) / 2| = -1 := by
    rw [abs_of_pos (by linarith)]
    apply log_eq_of_digits (n := 9) (e := -1) (by norm_num)
    · rw [zpow_neg_one]
      push_cast
      linarith
    · rw [zpow_neg_one]
      push_cast
      linarith
  have grid : p.gridExponent (1 - 10 ^ (-p.digits : ℤ) / 2) = -p.digits := by
    rw [gridExponent, leading]
    unfold leastExponent minExponent
    omega
  -- In units of the last digit it lies halfway below a power of ten, which is even.
  have scaled : (1 - 10 ^ (-p.digits : ℤ) / 2) / 10 ^ (-p.digits : ℤ) =
      ((10 ^ p.digits - 1 : ℤ) : ℚ) + 1 / 2 := by
    rw [div_eq_iff unit.ne', add_mul]
    push_cast
    rw [sub_mul, p.tenPow_digits_mul]
    ring
  have odd : (10 ^ p.digits - 1 : ℤ) % 2 = 1 := by
    obtain ⟨k, hk⟩ : ∃ k, p.digits = k + 1 := ⟨p.digits - 1, by omega⟩
    rw [hk, pow_succ]
    omega
  rw [nearest, grid, scaled, (isNearestEven_tie _).halfEven_eq, odd, sub_add_cancel]
  push_cast
  exact p.tenPow_digits_mul

/-- What is rounded to one or more lies no more than half a unit below one. -/
theorem one_le_nearest_iff (hr : 0 ≤ r) :
    1 ≤ p.nearest r ↔ 1 ≤ r + 10 ^ (-p.digits : ℤ) / 2 := by
  have unit := tenPow_pos (-p.digits)
  constructor
  · intro certain
    by_contra! below
    have one : (10 : ℚ) ^ (0 : ℤ) = 1 := zpow_zero 10
    have moved := abs_nearest_sub_le_of_lt (p := p) (e := 0) (by decide) hr (by linarith)
    rw [zero_sub] at moved
    have most := (abs_le.mp moved).2
    linarith
  · intro near
    have small : (10 : ℚ) ^ (-p.digits : ℤ) ≤ 10 ^ (0 : ℤ) := tenPow_le (by omega)
    rw [zpow_zero] at small
    rw [← nearest_half_unit_below_one p]
    exact nearest_mono (by linarith) (by linarith)

/-! ### The disjunction of values -/

/-- A disjunction succeeds if its three operations do. -/
theorem disjunctionValue_eq_ok :
    p.disjunctionValue r s = .ok v ↔
      ∃ sum product, p.roundValue (r + s) = .ok sum ∧ p.roundValue (r * s) = .ok product ∧
        p.roundValue (sum - product) = .ok v := by
  simp only [disjunctionValue, bind_eq_ok, exists_and_left]

/-- The rounded product of truth values is not above the rounded sum. -/
theorem nonneg_sum_sub_product (hr : 0 ≤ r) (hr' : r ≤ 1) (hs : 0 ≤ s)
    (hsum : p.roundValue (r + s) = .ok sum) (hproduct : p.roundValue (r * s) = .ok product) :
    0 ≤ sum - product := by
  rw [eq_nearest_of_roundValue hsum, eq_nearest_of_roundValue hproduct, sub_nonneg]
  apply nearest_mono (mul_nonneg hr hs)
  nlinarith

/-- A disjunction of truth values falls short of either side by half a unit at most, and not at all
if the sum is not rounded down. -/
theorem side_le_disjunction (hr : 0 ≤ r) (hr' : r ≤ 1) (hs : 0 ≤ s) (hs' : s ≤ 1)
    (digits : p.HasDigits r) (digits' : p.HasDigits s) (hsum : p.roundValue (r + s) = .ok sum)
    (hproduct : p.roundValue (r * s) = .ok product)
    (hv : p.roundValue (sum - product) = .ok v) :
    r ≤ v + 10 ^ (1 - p.digits : ℤ) / 2 ∧ (r + s ≤ sum → r ≤ v) := by
  have difference := nonneg_sum_sub_product hr hr' hs hsum hproduct
  have below : product ≤ s := digits'.roundValue_le (mul_nonneg hr hs) (by nlinarith) hproduct
  constructor
  · have moved := abs_nearest_sub_le_of_lt (p := p) (e := 1) (by decide) (add_nonneg hr hs) (by
      rw [zpow_one]
      linarith)
    rw [← eq_nearest_of_roundValue hsum] at moved
    have lost := (abs_le.mp moved).1
    by_cases tiny : r < 10 ^ (1 - p.digits : ℤ) / 2
    · have nonneg := nearest_nonneg (p := p) difference
      rw [← eq_nearest_of_roundValue hv] at nonneg
      linarith
    · have least := (digits.sub_half_unit hr' (by linarith)).le_roundValue difference
        (by linarith) hv
      linarith
  · intro up
    exact digits.le_roundValue difference (by linarith) hv

/-- A disjunction of truth values falls short of the larger side by half a unit at most, and not at
all if the sum is not rounded down. If the second side is one, it is one or more exactly if the sum
loses no more than half a unit one place further down, and one if the sum is exact. -/
theorem disjunctionValue_bounds (hr : 0 ≤ r) (hr' : r ≤ 1) (hs : 0 ≤ s) (hs' : s ≤ 1)
    (digits : p.HasDigits r) (digits' : p.HasDigits s)
    (h : p.disjunctionValue r s = .ok v) :
    ∃ sum, p.roundValue (r + s) = .ok sum ∧
      max r s ≤ v + 10 ^ (1 - p.digits : ℤ) / 2 ∧
      (r + s ≤ sum → max r s ≤ v) ∧
      (s = 1 → (1 ≤ v ↔ r + 1 ≤ sum + 10 ^ (-p.digits : ℤ) / 2) ∧ (sum = r + 1 → v = 1)) := by
  obtain ⟨sum, product, hsum, hproduct, hv⟩ := disjunctionValue_eq_ok.mp h
  have first := side_le_disjunction hr hr' hs hs' digits digits' hsum hproduct hv
  have second := side_le_disjunction hs hs' hr hr' digits' digits (by rwa [add_comm])
    (by rwa [mul_comm]) hv
  rw [add_comm s r] at second
  refine ⟨sum, hsum, max_le first.1 second.1, ?_, ?_⟩
  · intro up
    exact max_le (first.2 up) (second.2 up)
  · rintro rfl
    have difference := nonneg_sum_sub_product hr hr' hs hsum hproduct
    rw [mul_one] at hproduct
    obtain rfl := digits.roundValue_eq hr hproduct
    constructor
    · rw [eq_nearest_of_roundValue hv, one_le_nearest_iff difference]
      constructor <;> intro near <;> linarith
    · rintro rfl
      rw [add_sub_cancel_left] at hv
      exact digits'.roundValue_eq zero_le_one hv

end Precision

/-! ### The disjunction of numbers -/

/-- A number is certain if its value is at least one. -/
theorem PrefixOp.apply_certain {p : Precision} {x : Decimal} {r : ℚ} (hx : x.HasValue r) :
    PrefixOp.certain.apply p x = .ok (.ofBool (1 ≤ r)) := by
  rw [apply, hx.order Decimal.hasValue_one, ← isGE_compare]
  rfl

/-- A disjunction that succeeds has the disjunction of the values. -/
theorem BinaryOp.disjunctionValue_of_apply {p : Precision} {x y v : Decimal} {r s : ℚ}
    (hx : x.HasValue r) (hy : y.HasValue s)
    (h : BinaryOp.disjunction.apply p x y = .ok v) :
    ∃ w, v.HasValue w ∧ p.disjunctionValue r s = .ok w := by
  have agree := BinaryOp.disjunction.agree_onValues (p := p) (by decide) hx hy
  rw [h] at agree
  obtain ⟨w, onValues, value⟩ := agree.exists_right
  obtain ⟨result, found, ends⟩ := bind_eq_ok.mp onValues
  split_ifs at ends
  cases ends
  exact ⟨_, value, mapError_eq_ok.mp found⟩

/-- A disjunction of truth values falls short of the maximum by no more than half a unit of the last
digit that numbers above one have, and not at all if the sum is not rounded down. A disjunction with
one is certain exactly if the sum loses no more than half a unit one place further down; it is then
one, if there are two digits or more or the sum is exact. -/
theorem BinaryOp.disjunction_falls_short (p : Precision) (x y : FiniteDecimal) (v : Decimal)
    (hx : 0 ≤ x.toRat) (hx' : x.toRat ≤ 1) (hy : 0 ≤ y.toRat) (hy' : y.toRat ≤ 1)
    (digits : p.HasDigits x.toRat) (digits' : p.HasDigits y.toRat)
    (h : BinaryOp.disjunction.apply p (.finite x) (.finite y) = .ok v) :
    ∃ sum larger result : FiniteDecimal,
      BinaryOp.sum.apply p (.finite x) (.finite y) = .ok (.finite sum) ∧
      BinaryOp.maximum.apply p (.finite x) (.finite y) = .ok (.finite larger) ∧
      v = .finite result ∧
      larger.toRat ≤ result.toRat + 10 ^ (1 - p.digits : ℤ) / 2 ∧
      (x.toRat + y.toRat ≤ sum.toRat → larger.toRat ≤ result.toRat) ∧
      (y.toRat = 1 →
        PrefixOp.certain.apply p v = .ok (.ofBool (1 ≤ result.toRat)) ∧
        (1 ≤ result.toRat ↔ x.toRat + 1 ≤ sum.toRat + 10 ^ (-p.digits : ℤ) / 2) ∧
        (2 ≤ p.digits ∨ sum.toRat = x.toRat + 1 → 1 ≤ result.toRat → result.toRat = 1)) := by
  have valueX : Decimal.HasValue (.finite x) x.toRat := ⟨x, rfl, rfl⟩
  have valueY : Decimal.HasValue (.finite y) y.toRat := ⟨y, rfl, rfl⟩
  obtain ⟨w, value, hw⟩ := BinaryOp.disjunctionValue_of_apply valueX valueY h
  obtain ⟨result, rfl, rfl⟩ := value
  obtain ⟨w, hsum, short, exact, one⟩ :=
    Precision.disjunctionValue_bounds hx hx' hy hy' digits digits' hw
  have agree := BinaryOp.sum.agree_onValues (p := p) (by decide) valueX valueY
  rw [onValues, hsum] at agree
  obtain ⟨_, applied, sum, rfl, rfl⟩ := agree.exists_left
  obtain ⟨_, maximum, larger, rfl, hlarger⟩ :=
    (BinaryOp.maximum.agree_onValues (p := p) (by decide) valueX valueY).exists_left
  rw [← hlarger] at short exact
  refine ⟨sum, larger, result, applied, maximum, rfl, short, exact, ?_⟩
  intro certain
  obtain ⟨exactly, whole⟩ := one certain
  refine ⟨PrefixOp.apply_certain ⟨result, rfl, rfl⟩, exactly, ?_⟩
  rintro (two | added) least
  · have within := Precision.within_disjunctionValue two hx hx' hy hy'
    rw [hw] at within
    cases within with
    | value _ most => exact le_antisymm most least
  · exact whole added

/-- With two digits, one and a twentieth is rounded to one. So the disjunction of a twentieth and
one falls short by all of the half unit, and is not certain. -/
theorem BinaryOp.disjunction_falls_short_twentieth :
    let p : Precision := ⟨2, by decide⟩
    let twentieth : FiniteDecimal := ⟨false, 5, -2⟩
    let one : FiniteDecimal := .ofNat 1
    0 ≤ twentieth.toRat ∧ twentieth.toRat ≤ 1 ∧ p.HasDigits twentieth.toRat ∧
      0 ≤ one.toRat ∧ one.toRat ≤ 1 ∧ p.HasDigits one.toRat ∧
      BinaryOp.disjunction.apply p (.finite twentieth) (.finite one) =
        .ok (.finite ⟨false, 95, -2⟩) ∧
      (1 : ℚ) ≤ FiniteDecimal.toRat ⟨false, 95, -2⟩ + 10 ^ (1 - p.digits : ℤ) / 2 ∧
      PrefixOp.certain.apply p (.finite ⟨false, 95, -2⟩) = .ok .zero := by
  intro p twentieth one
  have value : twentieth.toRat = 5 / 100 := by norm_num [FiniteDecimal.toRat, signed, twentieth]
  have certain : one.toRat = 1 := by simp [one]
  have digits : p.HasDigits twentieth.toRat := Precision.hasDigits_toRat (by decide)
  have digits' : p.HasDigits one.toRat := Precision.hasDigits_toRat (by decide)
  have applied : BinaryOp.disjunction.apply p (.finite twentieth) (.finite one) =
      .ok (.finite ⟨false, 95, -2⟩) := by decide +kernel
  have least : 0 ≤ twentieth.toRat := by norm_num [value]
  have most : twentieth.toRat ≤ 1 := by norm_num [value]
  obtain ⟨sum, larger, result, hsum, hlarger, heq, short, -, ends⟩ :=
    BinaryOp.disjunction_falls_short p twentieth one _ least most (by simp [certain])
      (by simp [certain]) digits digits' applied
  cases heq
  have maximum : BinaryOp.maximum.apply p (.finite twentieth) (.finite one) =
      .ok (.finite one) := by decide +kernel
  cases hlarger.symm.trans maximum
  rw [certain] at short
  refine ⟨least, most, digits, by simp [certain], by simp [certain], digits', applied, short, ?_⟩
  rw [(ends certain).1]
  decide +kernel

/-- The law fails for a third: with 28 digits the sum with one loses three units of the place that
decides, so that the disjunction is below one and not certain. -/
theorem BinaryOp.disjunction_third_not_certain :
    let third : FiniteDecimal := ⟨false, 3333333333333333333333333333, -28⟩
    let short : Decimal := .finite ⟨false, 9999999999999999999999999997, -28⟩
    0 ≤ third.toRat ∧ third.toRat ≤ 1 ∧ Digits.count third.coefficient ≤ Precision.standard.digits ∧
      BinaryOp.disjunction.apply .standard (.finite third) .one = .ok short ∧
      BinaryOp.maximum.apply .standard (.finite third) .one = .ok .one ∧
      BinaryOp.lessOrEqual.apply .standard .one short = .ok .zero ∧
      PrefixOp.certain.apply .standard short = .ok .zero := by
  intro third short
  have value : third.toRat = 3333333333333333333333333333 / 10 ^ 28 := by
    norm_num [FiniteDecimal.toRat, signed, third]
  refine ⟨by norm_num [value], by norm_num [value], ?_, ?_, ?_, ?_, ?_⟩
  all_goals decide +kernel

end FuzzyCalc
