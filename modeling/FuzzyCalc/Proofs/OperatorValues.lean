import FuzzyCalc.Proofs.Agreement
import FuzzyCalc.Proofs.Quotients

/-!
# The operators on values

On finite numbers every operator but the power has a meaning on values: the value of its result, or
why there is none, follows from the values of the operands alone. So the zeros in which an operand
ends are never seen, and a law of an operator can be proved as one of rational numbers.
-/

namespace FuzzyCalc

open FiniteDecimal

/-- The condition for which the arithmetic refused an operation, if it did; an operator that refuses
operands itself names none. -/
def Cause.condition? : Cause → Option Condition
  | outOfRange _ condition => some condition
  | _ => none

/-- Why an operator fails: for a condition of the arithmetic, or for its own reasons. -/
def Cause.Names (cause : Cause) (condition : Option Condition) : Prop :=
  cause.kind = .domain ∧ cause.condition? = condition

/-- A finite number of some value. -/
def Decimal.HasValue (x : Decimal) (r : ℚ) : Prop :=
  ∃ f : FiniteDecimal, x = .finite f ∧ f.toRat = r

/-- One if something is true, else zero. -/
def truthValue (yes : Bool) : ℚ := if yes then 1 else 0

/-- Half of the sum of two values, both results rounded. -/
def Precision.averageValue (p : Precision) (r s : ℚ) : Except Condition ℚ := do
  let sum ← p.roundValue (r + s)
  p.roundValue (sum / 2)

/-- The sum less the product of two values, each of the three results rounded. -/
def Precision.disjunctionValue (p : Precision) (r s : ℚ) : Except Condition ℚ := do
  let sum ← p.roundValue (r + s)
  let product ← p.roundValue (r * s)
  p.roundValue (sum - product)

/-- The answer of the arithmetic on values, where a refusal is that of an operator. -/
def attemptValue (answer : Except Condition ℚ) : Except (Option Condition) ℚ := answer.mapError some

/-- What a prefix operator makes of a value. -/
def PrefixOp.onValue (p : Precision) (op : PrefixOp) (r : ℚ) : Except (Option Condition) ℚ :=
  match op with
  | .complement => if 1 < r then .error none else attemptValue (p.roundValue (1 - r))
  | .possible => .ok (truthValue (0 < r))
  | .certain => .ok (truthValue (1 ≤ r))

/-- What a postfix operator makes of a value. -/
def PostfixOp.onValue (p : Precision) (op : PostfixOp) (r : ℚ) : Except (Option Condition) ℚ :=
  match op with
  | .percent => attemptValue (p.roundValue (r / 100))

/-- What a binary operator makes of two values. The power is left out: the digits that it is
computed to depend on how its operands are written. -/
def BinaryOp.onValues (p : Precision) (op : BinaryOp) (h : op ≠ .power) (r s : ℚ) :
    Except (Option Condition) ℚ :=
  match op, h with
  | .equal, _ => .ok (truthValue (r = s))
  | .less, _ => .ok (truthValue (r < s))
  | .more, _ => .ok (truthValue (s < r))
  | .notEqual, _ => .ok (truthValue (r ≠ s))
  | .lessOrEqual, _ => .ok (truthValue (r ≤ s))
  | .moreOrEqual, _ => .ok (truthValue (s ≤ r))
  | .sum, _ => attemptValue (p.roundValue (r + s))
  | .difference, _ => attemptValue ((|·|) <$> p.roundValue (r - s))
  | .product, _ => attemptValue (p.roundValue (r * s))
  | .quotient, _ => if s ≤ 0 then .error none else attemptValue (p.roundValue (r / s))
  | .power, h => absurd rfl h
  | .minimum, _ => .ok (min r s)
  | .average, _ => attemptValue (p.averageValue r s)
  | .maximum, _ => .ok (max r s)
  | .disjunction, _ => do
    let result ← attemptValue (p.disjunctionValue r s)
    if result < 0 then .error none else .ok result

/-! ### The order of values -/

/-- A value is more than another exactly if that is less. -/
theorem isGT_compare (r s : ℚ) : (compare r s).isGT = decide (s < r) := by
  rw [Bool.eq_iff_iff, Ordering.isGT_iff_eq_gt, compare_gt_iff_gt, decide_eq_true_iff]

/-- A value is less than another. -/
theorem isLT_compare (r s : ℚ) : (compare r s).isLT = decide (r < s) := by
  rw [Bool.eq_iff_iff, Ordering.isLT_iff_eq_lt, compare_lt_iff_lt, decide_eq_true_iff]

/-- A value is at most another. -/
theorem isLE_compare (r s : ℚ) : (compare r s).isLE = decide (r ≤ s) := by
  rw [Bool.eq_iff_iff, Std.LawfulLECmp.isLE_iff_le, decide_eq_true_iff]

/-- A value is at least another exactly if that is at most the value. -/
theorem isGE_compare (r s : ℚ) : (compare r s).isGE = decide (s ≤ r) := by
  rw [Bool.eq_iff_iff, Std.LawfulLECmp.isGE_iff_ge, decide_eq_true_iff]

/-! ### The arithmetic -/

section

variable {p : Precision} {x y : Decimal} {r s : ℚ}

/-- A finite outcome agrees with its value. -/
theorem agree_of_toRat {a : Except Condition FiniteDecimal} {v : Except Condition ℚ}
    (h : toRat <$> a = v) : Agree Eq Decimal.HasValue (.finite <$> a) v := by
  subst h
  cases a with
  | ok f => exact .ok ⟨f, rfl, rfl⟩
  | error condition => exact .error rfl

/-- An attempt names the condition for which the arithmetic refuses. -/
theorem agree_attempt {operation : List Token} {a : Except Condition Decimal}
    {v : Except Condition ℚ} (h : Agree Eq Decimal.HasValue a v) :
    Agree Cause.Names Decimal.HasValue (attempt operation a) (attemptValue v) :=
  h.mapError fun _ _ same ↦ ⟨rfl, congrArg some same⟩

namespace Decimal

/-- A finite number has its own value. -/
theorem hasValue_finite (f : FiniteDecimal) : HasValue (.finite f) f.toRat := ⟨f, rfl, rfl⟩

/-- A number is a zero if its value is zero. -/
theorem HasValue.isZero_iff (hx : x.HasValue r) : x.isZero = true ↔ r = 0 := by
  obtain ⟨f, rfl, rfl⟩ := hx
  exact FiniteDecimal.isZero_iff

/-- Yes is one and no is zero. -/
theorem hasValue_ofBool (yes : Bool) : (ofBool yes).HasValue (truthValue yes) := by
  cases yes with
  | false => exact ⟨.ofNat 0, rfl, by simp [truthValue]⟩
  | true => exact ⟨.ofNat 1, rfl, by simp [truthValue]⟩

/-- A natural number has itself as its value. -/
theorem hasValue_ofNat (n : ℕ) : (ofNat n).HasValue n := ⟨.ofNat n, rfl, toRat_ofNat n⟩

/-- Zero has the value zero. -/
theorem hasValue_zero : zero.HasValue 0 := hasValue_ofNat 0

/-- One has the value one. -/
theorem hasValue_one : one.HasValue 1 := by
  have value := hasValue_ofNat 1
  rwa [Nat.cast_one] at value

/-- Numbers are ordered as their values. -/
theorem HasValue.order (hx : x.HasValue r) (hy : y.HasValue s) :
    x.order y = .ok (compare r s) := by
  obtain ⟨f, rfl, rfl⟩ := hx
  obtain ⟨g, rfl, rfl⟩ := hy
  exact congrArg Except.ok (order_eq_compare f g)

/-- Numbers are equal if their values are. -/
theorem HasValue.equals (hx : x.HasValue r) (hy : y.HasValue s) :
    x.equals y = .ok (decide (r = s)) := by
  obtain ⟨f, rfl, rfl⟩ := hx
  obtain ⟨g, rfl, rfl⟩ := hy
  have order : f.order g = .eq ↔ f.toRat = g.toRat := by
    rw [order_eq_compare, compare_eq_iff_eq]
  change Except.ok (some (f.order g) == some .eq) = Except.ok _
  congr 1
  rw [Bool.eq_iff_iff]
  simp [order]

/-- A number is compared with zero as its value is. -/
theorem HasValue.isAtMostZero (hx : x.HasValue r) : x.isAtMostZero = .ok (decide (r ≤ 0)) := by
  rw [Decimal.isAtMostZero, hx.order hasValue_zero, ← isLE_compare]
  rfl

/-- A number lies below zero if its value does. -/
theorem HasValue.isBelowZero (hx : x.HasValue r) : x.isBelowZero = decide (r < 0) := by
  obtain ⟨f, rfl, rfl⟩ := hx
  have size := abs_nonneg f.toRat
  have nonzero : f.isZero = false ↔ f.toRat ≠ 0 := by
    simp [FiniteDecimal.isZero, toRat_eq_zero]
  change (f.negative && !f.isZero) = decide (f.toRat < 0)
  rw [Bool.eq_iff_iff, Bool.and_eq_true, Bool.not_eq_true', decide_eq_true_iff, nonzero]
  have sign := f.toRat_eq_abs
  constructor
  · rintro ⟨minus, value⟩
    rw [if_pos minus] at sign
    exact lt_of_le_of_ne (by linarith) value
  · intro below
    refine ⟨?_, below.ne⟩
    by_contra plus
    rw [if_neg plus] at sign
    linarith

/-- The value of a sum. -/
theorem HasValue.add (hx : x.HasValue r) (hy : y.HasValue s) :
    Agree Eq HasValue (x.add p y) (p.roundValue (r + s)) := by
  obtain ⟨f, rfl, rfl⟩ := hx
  obtain ⟨g, rfl, rfl⟩ := hy
  exact agree_of_toRat (toRat_add p f g)

/-- The value of a difference. -/
theorem HasValue.sub (hx : x.HasValue r) (hy : y.HasValue s) :
    Agree Eq HasValue (x.sub p y) (p.roundValue (r - s)) := by
  obtain ⟨f, rfl, rfl⟩ := hx
  obtain ⟨g, rfl, rfl⟩ := hy
  have sum := toRat_add p f g.neg
  rw [toRat_neg, ← sub_eq_add_neg] at sum
  exact agree_of_toRat sum

/-- The value of a product. -/
theorem HasValue.mul (hx : x.HasValue r) (hy : y.HasValue s) :
    Agree Eq HasValue (x.mul p y) (p.roundValue (r * s)) := by
  obtain ⟨f, rfl, rfl⟩ := hx
  obtain ⟨g, rfl, rfl⟩ := hy
  exact agree_of_toRat (toRat_mul p f g)

/-- The value of a quotient. -/
theorem HasValue.div (hx : x.HasValue r) (hy : y.HasValue s) (h : s ≠ 0) :
    Agree Eq HasValue (x.div p y) (p.roundValue (r / s)) := by
  obtain ⟨f, rfl, rfl⟩ := hx
  obtain ⟨g, rfl, rfl⟩ := hy
  exact agree_of_toRat (toRat_div p f (mt toRat_eq_zero.mpr h))

/-- The value of an average. -/
theorem HasValue.average (hx : x.HasValue r) (hy : y.HasValue s) :
    Agree Eq HasValue (x.average p y) (p.averageValue r s) :=
  (hx.add hy).bind fun _ _ sum ↦ sum.div (hasValue_ofNat 2) (by norm_num)

/-- The value of a disjunction. -/
theorem HasValue.disjunction (hx : x.HasValue r) (hy : y.HasValue s) :
    Agree Eq HasValue (x.disjunction p y) (p.disjunctionValue r s) :=
  (hx.add hy).bind fun _ _ sum ↦ (hx.mul hy).bind fun _ _ product ↦ sum.sub product

/-- The value without the sign. -/
theorem HasValue.abs (hx : x.HasValue r) : x.abs.HasValue |r| := by
  obtain ⟨f, rfl, rfl⟩ := hx
  exact ⟨f.abs, rfl, toRat_abs f⟩

end Decimal

/-! ### The operators -/

/-- A comparison answers whether the order of the values is as asked. -/
theorem agree_comparison {operation : List Token} {ask : Ordering → Bool} {yes : Bool}
    (hx : x.HasValue r) (hy : y.HasValue s) (h : ask (compare r s) = yes) :
    Agree Cause.Names Decimal.HasValue
      (attempt operation ((fun o ↦ .ofBool (ask o)) <$> x.order y)) (.ok (truthValue yes)) := by
  rw [hx.order hy, ← h]
  exact .ok (Decimal.hasValue_ofBool _)

/-- Prefix operators act on values. -/
theorem PrefixOp.agree_onValue (op : PrefixOp) (hx : x.HasValue r) :
    Agree Cause.Names Decimal.HasValue (op.apply p x) (op.onValue p r) := by
  cases op with
  | complement =>
    simp only [apply, onValue, hx.order Decimal.hasValue_one]
    change Agree _ _ (if (compare r 1).isGT then _ else _) _
    rw [isGT_compare]
    by_cases above : 1 < r
    · rw [if_pos (decide_eq_true above), if_pos above]
      exact .error ⟨rfl, rfl⟩
    · rw [if_neg (by simpa using above), if_neg above]
      exact agree_attempt (Decimal.hasValue_one.sub hx)
  | possible => exact agree_comparison hx Decimal.hasValue_zero (isGT_compare r 0)
  | certain => exact agree_comparison hx Decimal.hasValue_one (isGE_compare r 1)

/-- Up to one a complement is what is left to one, rounded. -/
theorem PrefixOp.agree_complement (hx : x.HasValue r) (most : r ≤ 1) :
    Agree Cause.Names Decimal.HasValue (PrefixOp.complement.apply p x)
      (attemptValue (p.roundValue (1 - r))) := by
  have agree := PrefixOp.complement.agree_onValue (p := p) hx
  rwa [onValue, if_neg (not_lt.mpr most)] at agree

/-- Postfix operators act on values. -/
theorem PostfixOp.agree_onValue (op : PostfixOp) (hx : x.HasValue r) :
    Agree Cause.Names Decimal.HasValue (op.apply p x) (op.onValue p r) := by
  cases op with
  | percent => exact agree_attempt (hx.div (Decimal.hasValue_ofNat 100) (by norm_num))

/-- Binary operators but the power act on values. -/
theorem BinaryOp.agree_onValues (op : BinaryOp) (h : op ≠ .power) (hx : x.HasValue r)
    (hy : y.HasValue s) :
    Agree Cause.Names Decimal.HasValue (op.apply p x y) (op.onValues p h r s) := by
  cases op with
  | power => exact absurd rfl h
  | less => exact agree_comparison hx hy (isLT_compare r s)
  | more => exact agree_comparison hx hy (isGT_compare r s)
  | lessOrEqual => exact agree_comparison hx hy (isLE_compare r s)
  | moreOrEqual => exact agree_comparison hx hy (isGE_compare r s)
  | equal =>
    simp only [apply, hx.equals hy]
    exact .ok (Decimal.hasValue_ofBool _)
  | notEqual =>
    simp only [apply, hx.equals hy, onValues, ne_eq, decide_not]
    exact .ok (Decimal.hasValue_ofBool _)
  | sum => exact agree_attempt (hx.add hy)
  | difference => exact agree_attempt ((hx.sub hy).map fun _ _ ↦ Decimal.HasValue.abs)
  | product => exact agree_attempt (hx.mul hy)
  | quotient =>
    simp only [apply, onValues, hy.isAtMostZero]
    change Agree _ _ (if decide (s ≤ 0) = true then _ else _) _
    by_cases atMostZero : s ≤ 0
    · rw [if_pos (decide_eq_true atMostZero), if_pos atMostZero]
      exact .error ⟨rfl, rfl⟩
    · rw [if_neg (by simpa using atMostZero), if_neg atMostZero]
      exact agree_attempt (hx.div hy (not_le.mp atMostZero).ne')
  | minimum =>
    simp only [apply, hx.order hy]
    refine .ok ?_
    beta_reduce
    rw [isLE_compare]
    by_cases first : r ≤ s
    · rwa [if_pos (decide_eq_true first), min_eq_left first]
    · rwa [if_neg (by simpa using first), min_eq_right (not_le.mp first).le]
  | maximum =>
    simp only [apply, hx.order hy]
    refine .ok ?_
    beta_reduce
    rw [isGE_compare]
    by_cases first : s ≤ r
    · rwa [if_pos (decide_eq_true first), max_eq_left first]
    · rwa [if_neg (by simpa using first), max_eq_right (not_le.mp first).le]
  | average => exact agree_attempt (hx.average hy)
  | disjunction =>
    refine (agree_attempt (hx.disjunction hy)).bind fun result v value ↦ ?_
    rw [value.order Decimal.hasValue_zero]
    change Agree _ _ (if (compare v 0).isLT then _ else _) _
    rw [isLT_compare]
    by_cases below : v < 0
    · rw [if_pos (decide_eq_true below), if_pos below]
      exact .error ⟨rfl, rfl⟩
    · rw [if_neg (by simpa using below), if_neg below]
      exact .ok value

/-- A sum has the rounded sum of the values. -/
theorem BinaryOp.agree_sum (hx : x.HasValue r) (hy : y.HasValue s) :
    Agree Cause.Names Decimal.HasValue (BinaryOp.sum.apply p x y)
      (attemptValue (p.roundValue (r + s))) := BinaryOp.sum.agree_onValues (by decide) hx hy

/-- An average has half of the rounded sum, rounded. -/
theorem BinaryOp.agree_average (hx : x.HasValue r) (hy : y.HasValue s) :
    Agree Cause.Names Decimal.HasValue (BinaryOp.average.apply p x y)
      (attemptValue (p.averageValue r s)) := BinaryOp.average.agree_onValues (by decide) hx hy

/-- There is always a minimum, which has the smaller value. -/
theorem BinaryOp.exists_minimum (p : Precision) (hx : x.HasValue r) (hy : y.HasValue s) :
    ∃ v, BinaryOp.minimum.apply p x y = .ok v ∧ v.HasValue (min r s) :=
  (BinaryOp.minimum.agree_onValues (by decide) hx hy).exists_left

/-- There is always a maximum, which has the larger value. -/
theorem BinaryOp.exists_maximum (p : Precision) (hx : x.HasValue r) (hy : y.HasValue s) :
    ∃ v, BinaryOp.maximum.apply p x y = .ok v ∧ v.HasValue (max r s) :=
  (BinaryOp.maximum.agree_onValues (by decide) hx hy).exists_left

/-- A result has the value that the arithmetic on values gives. -/
theorem exists_value_of_agree {outcome : Except Cause Decimal} {a : Except Condition ℚ}
    (agree : Agree Cause.Names Decimal.HasValue outcome (attemptValue a)) (h : outcome = .ok x) :
    ∃ w, x.HasValue w ∧ a = .ok w := by
  rw [h] at agree
  obtain ⟨w, attempted, value⟩ := agree.exists_right
  exact ⟨w, value, mapError_eq_ok.mp attempted⟩

end

end FuzzyCalc
