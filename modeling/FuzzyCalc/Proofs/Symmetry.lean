import FuzzyCalc.Proofs.SameValues
import FuzzyCalc.Proofs.Sign

/-!
# Operands exchanged

A sum, a difference, a product, an average and a disjunction do not depend on the order of their
operands, to the last digit: exact sums and products are the same numbers in both orders, exact
differences are the same but for the sign, and rounding does not look at the sign. What cannot be
computed in one order cannot be computed in the other, for the same cause. A minimum or a maximum is
one of the operands; of two forms of one value it is the left one, so only its value is the same.
-/

namespace FuzzyCalc

namespace FiniteDecimal

/-- An exact sum is the same in both orders, also in its sign and its exponent. -/
theorem exactAdd_comm (x y : FiniteDecimal) : x.exactAdd y = y.exactAdd x := by
  unfold exactAdd
  dsimp only
  rw [Int.min_comm, Int.add_comm, Bool.and_comm]

/-- An exact product is the same in both orders. -/
theorem exactMul_comm (x y : FiniteDecimal) : x.exactMul y = y.exactMul x := by
  unfold exactMul
  rw [bne_comm, Nat.mul_comm, Int.add_comm]

/-- Without its sign an exact difference is the same in both orders. -/
theorem abs_exactSub_comm (x y : FiniteDecimal) :
    (x.exactAdd y.neg).abs = (y.exactAdd x.neg).abs := by
  have exponents : min x.exponent y.neg.exponent = min y.exponent x.neg.exponent :=
    Int.min_comm x.exponent y.exponent
  have opposite (e : ℤ) : (x.alignedTo e + y.neg.alignedTo e).natAbs =
      (y.alignedTo e + x.neg.alignedTo e).natAbs := by
    rw [alignedTo_neg, alignedTo_neg]
    omega
  unfold exactAdd abs
  dsimp only
  rw [exponents, opposite]

/-- The nearest decimal to a number without its sign is the nearest to the number, without it. -/
theorem nearest_abs (p : Precision) (x : FiniteDecimal) : x.abs.nearest p = (x.nearest p).abs := by
  unfold nearest
  dsimp only
  rw [apply_ite abs]
  rfl

/-- The sign does not count for the leading digit. -/
theorem leadingExponent_abs (x : FiniteDecimal) : x.abs.leadingExponent = x.leadingExponent := rfl

/-- The sign does not count for what is rounded off. -/
theorem mod_roundingUnit_abs (p : Precision) (x : FiniteDecimal) :
    x.abs.coefficient % x.abs.roundingUnit p = x.coefficient % x.roundingUnit p := rfl

/-- Rounding does not look at the sign. -/
theorem round_abs (p : Precision) (x : FiniteDecimal) : x.abs.round p = abs <$> x.round p := by
  by_cases zero : x.coefficient = 0
  · rw [round_zero zero, round_zero (x := x.abs) zero]
    rfl
  · rw [round_of_ne_zero zero, round_of_ne_zero (x := x.abs) zero, nearest_abs,
      leadingExponent_abs, leadingExponent_abs, mod_roundingUnit_abs]
    split_ifs
    all_goals rfl

end FiniteDecimal

namespace Decimal

variable (p : Precision) (x y : FiniteDecimal)

/-- A sum is the same in both orders. -/
theorem add_comm_finite : (finite x).add p (.finite y) = (finite y).add p (.finite x) := by
  change finite <$> (x.exactAdd y).round p = finite <$> (y.exactAdd x).round p
  rw [FiniteDecimal.exactAdd_comm]

/-- A product is the same in both orders. -/
theorem mul_comm_finite : (finite x).mul p (.finite y) = (finite y).mul p (.finite x) := by
  change finite <$> (x.exactMul y).round p = finite <$> (y.exactMul x).round p
  rw [FiniteDecimal.exactMul_comm]

/-- A rounded difference without its sign is the exact one without its sign, rounded. -/
theorem abs_sub_finite :
    abs <$> (finite x).sub p (.finite y) = finite <$> (x.exactAdd y.neg).abs.round p := by
  rw [FiniteDecimal.round_abs]
  change abs <$> finite <$> (x.exactAdd y.neg).round p = _
  cases (x.exactAdd y.neg).round p with
  | error condition => rfl
  | ok z => rfl

/-- A difference without its sign is the same in both orders. -/
theorem abs_sub_comm_finite :
    abs <$> (finite x).sub p (.finite y) = abs <$> (finite y).sub p (.finite x) := by
  rw [abs_sub_finite, abs_sub_finite, FiniteDecimal.abs_exactSub_comm]

/-- An average is the same in both orders. -/
theorem average_comm_finite :
    (finite x).average p (.finite y) = (finite y).average p (.finite x) := by
  unfold average
  rw [add_comm_finite]

/-- A disjunction is the same in both orders. -/
theorem disjunction_comm_finite :
    (finite x).disjunction p (.finite y) = (finite y).disjunction p (.finite x) := by
  unfold disjunction
  rw [add_comm_finite, mul_comm_finite]

end Decimal

/-! ### The operators -/

/-- The operators that treat their operands alike, to the last digit. -/
def BinaryOp.Symmetric : BinaryOp → Prop
  | .sum | .difference | .product | .average | .disjunction => True
  | _ => False

/-- The operators that select one of their operands. -/
def BinaryOp.Selects : BinaryOp → Prop
  | .minimum | .maximum => True
  | _ => False

/-- What is selected is one of the operands. -/
theorem BinaryOp.eq_operand {p : Precision} {op : BinaryOp} {x y z : Decimal} (hop : op.Selects)
    (h : op.apply p x y = .ok z) : z = x ∨ z = y := by
  cases op with
  | minimum | maximum =>
    obtain ⟨o, -, rfl⟩ := map_eq_ok.mp (attempt_eq_ok.mp h)
    split
    · exact .inl rfl
    · exact .inr rfl
  | _ => exact hop.elim

/-- Two complaints of an operator about its operands in the one order and in the other, for the same
cause: a condition of the arithmetic, or a disjunction with a certain negative result. -/
inductive Cause.Exchanged (op : BinaryOp) (x y : Decimal) : Cause → Cause → Prop
  /-- The arithmetic refuses both operations for one condition. -/
  | outOfRange (condition : Condition) :
    Exchanged op x y (.outOfRange [.number x, .symbol (.binaryOp op), .number y] condition)
      (.outOfRange [.number y, .symbol (.binaryOp op), .number x] condition)
  /-- Both disjunctions come out as one number below zero. -/
  | negativeDisjunction (result : Decimal) (h : op = .disjunction) :
    Exchanged op x y (.negativeDisjunction x y result) (.negativeDisjunction y x result)

/-- One answer of the arithmetic leads to one result, or to complaints for one condition. -/
theorem agree_exchanged {α : Type} {op : BinaryOp} {x y : Decimal} {a b : Except Condition α}
    (h : a = b) :
    Agree (Cause.Exchanged op x y) Eq
      (attempt [.number x, .symbol (.binaryOp op), .number y] a)
      (attempt [.number y, .symbol (.binaryOp op), .number x] b) := by
  subst h
  cases a with
  | ok z => exact .ok rfl
  | error condition => exact .error (.outOfRange condition)

/-- What is done with the result of a disjunction does not depend on the order either. -/
theorem BinaryOp.agree_disjunction_comm (p : Precision) (x y : FiniteDecimal) :
    Agree (Cause.Exchanged .disjunction (.finite x) (.finite y)) Eq
      (BinaryOp.disjunction.apply p (.finite x) (.finite y))
      (BinaryOp.disjunction.apply p (.finite y) (.finite x)) := by
  refine (agree_exchanged (Decimal.disjunction_comm_finite p x y)).bind ?_
  rintro result _ rfl
  refine (agree_exchanged rfl).bind ?_
  rintro o _ rfl
  by_cases below : o.isLT
  · rw [if_pos below, if_pos below]
    exact .error (.negativeDisjunction result rfl)
  · rw [if_neg below, if_neg below]
    exact .ok rfl

/-- What treats its operands alike gives the identical number in both orders, or fails in both for
the same cause. What selects an operand succeeds in both orders, with numbers of one value. -/
theorem BinaryOp.apply_comm (p : Precision) (op : BinaryOp) (x y : FiniteDecimal) :
    (op.Symmetric →
      Agree (Cause.Exchanged op (.finite x) (.finite y)) Eq
        (op.apply p (.finite x) (.finite y)) (op.apply p (.finite y) (.finite x))) ∧
    (op.Selects → ∃ v w, op.apply p (.finite x) (.finite y) = .ok v ∧
      op.apply p (.finite y) (.finite x) = .ok w ∧ v.SameValue w) := by
  have hx := Decimal.hasValue_finite x
  have hy := Decimal.hasValue_finite y
  constructor
  · intro symmetric
    cases op with
    | sum => exact agree_exchanged (Decimal.add_comm_finite p x y)
    | difference => exact agree_exchanged (Decimal.abs_sub_comm_finite p x y)
    | product => exact agree_exchanged (Decimal.mul_comm_finite p x y)
    | average => exact agree_exchanged (Decimal.average_comm_finite p x y)
    | disjunction => exact agree_disjunction_comm p x y
    | _ => exact symmetric.elim
  · intro selects
    cases op with
    | minimum =>
      obtain ⟨v, left, value⟩ := exists_minimum p hx hy
      obtain ⟨w, right, value'⟩ := exists_minimum p hy hx
      rw [min_comm] at value'
      exact ⟨v, w, left, right, _, value, value'⟩
    | maximum =>
      obtain ⟨v, left, value⟩ := exists_maximum p hx hy
      obtain ⟨w, right, value'⟩ := exists_maximum p hy hx
      rw [max_comm] at value'
      exact ⟨v, w, left, right, _, value, value'⟩
    | _ => exact selects.elim

/-- The disjunction of two and three comes out as minus one in both orders; the minimum of 0.6 and
0.60 is the left one in both. -/
theorem BinaryOp.apply_comm_two_three :
    let two : Decimal := .ofNat 2
    let three : Decimal := .ofNat 3
    let minusOne : Decimal := .finite ⟨true, 1, 0⟩
    let short : Decimal := .finite ⟨false, 6, -1⟩
    let long : Decimal := .finite ⟨false, 60, -2⟩
    BinaryOp.disjunction.Symmetric ∧ BinaryOp.minimum.Selects ∧
      BinaryOp.disjunction.apply .standard two three =
        .error (.negativeDisjunction two three minusOne) ∧
      BinaryOp.disjunction.apply .standard three two =
        .error (.negativeDisjunction three two minusOne) ∧
      BinaryOp.minimum.apply .standard short long = .ok short ∧
      BinaryOp.minimum.apply .standard long short = .ok long ∧ short.SameValue long := by
  intro two three minusOne short long
  have refused : BinaryOp.disjunction.apply .standard two three =
      .error (.negativeDisjunction two three minusOne) := by decide +kernel
  have left : BinaryOp.minimum.apply .standard short long = .ok short := by decide +kernel
  have right : BinaryOp.minimum.apply .standard long short = .ok long := by decide +kernel
  have agree := (BinaryOp.apply_comm .standard .disjunction (.ofNat 2) (.ofNat 3)).1 trivial
  obtain ⟨v, w, hv, hw, same⟩ :=
    (BinaryOp.apply_comm .standard .minimum ⟨false, 6, -1⟩ ⟨false, 60, -2⟩).2 trivial
  cases left.symm.trans hv
  cases right.symm.trans hw
  refine ⟨trivial, trivial, refused, ?_, left, right, same⟩
  obtain ⟨_, _, first, -, -⟩ | ⟨cause, other, first, second, exchanged⟩ := agree.ok_or_error
  · cases refused.symm.trans first
  · cases refused.symm.trans first
    cases exchanged with
    | negativeDisjunction => exact second

end FuzzyCalc
