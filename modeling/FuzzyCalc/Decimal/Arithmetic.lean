import FuzzyCalc.Decimal.Rounding

/-!
# Sums, products and quotients

The exact result is formed first and rounded once. A sum keeps the smaller exponent of its operands,
a product the sum of the exponents. An exact quotient is taken as near as possible to the difference
of the exponents; of an inexact one enough digits are computed, and one more that is not zero, so
that rounding sees on which side of a half it lies.
-/

namespace FuzzyCalc

namespace FiniteDecimal

/-- The sum before rounding. An exact zero is positive unless both operands are negative. -/
def exactAdd (x y : FiniteDecimal) : FiniteDecimal :=
  let e := min x.exponent y.exponent
  let sum := x.alignedTo e + y.alignedTo e
  ⟨if sum = 0 then x.negative && y.negative else decide (sum < 0), sum.natAbs, e⟩

/-- The rounded sum. -/
def add (p : Precision) (x y : FiniteDecimal) : Except Condition FiniteDecimal :=
  (x.exactAdd y).round p

/-- The product before rounding. -/
def exactMul (x y : FiniteDecimal) : FiniteDecimal :=
  ⟨x.negative != y.negative, x.coefficient * y.coefficient, x.exponent + y.exponent⟩

/-- The rounded product. -/
def mul (p : Precision) (x y : FiniteDecimal) : Except Condition FiniteDecimal :=
  (x.exactMul y).round p

/-- The rounded quotient. -/
def div (p : Precision) (x y : FiniteDecimal) : Except Condition FiniteDecimal :=
  let negative := x.negative != y.negative
  let ideal := x.exponent - y.exponent
  if y.isZero then .error (if x.isZero then .invalidOperation else .divisionByZero)
  else if x.isZero then round p ⟨negative, 0, ideal⟩
  else
    let shift := Digits.count y.coefficient + p.digits + 1 - Digits.count x.coefficient
    let dividend := x.coefficient * Digits.tenTo shift
    let quotient := dividend / y.coefficient
    if dividend % y.coefficient = 0 then
      let (digits, zeros) := Digits.stripZeros shift quotient
      round p ⟨negative, digits, ideal - shift + zeros⟩
    else
      round p ⟨negative, 10 * quotient + 1, ideal - shift - 1⟩

end FiniteDecimal

namespace Decimal

/-- The last digits of a payload, as many as the precision has. -/
def cutPayload (p : Precision) (payload : Nat) : Nat :=
  if Digits.count payload ≤ p.digits then payload else payload % Digits.tenTo p.digits

/-- What an operation answers when an operand is not a number: a signaling one is refused, otherwise
the first one is the answer, its payload cut to the precision. -/
def nanResult? (p : Precision) (x y : Decimal) : Option (Except Condition Decimal) :=
  if x.isSignaling || y.isSignaling then some (.error .invalidOperation)
  else match x, y with
    | .nan negative _ payload, _ => some (.ok (.nan negative false (cutPayload p payload)))
    | _, .nan negative _ payload => some (.ok (.nan negative false (cutPayload p payload)))
    | _, _ => none

/-- The sum. Infinities of opposite sign have none. -/
def add (p : Precision) (x y : Decimal) : Except Condition Decimal :=
  match nanResult? p x y with
  | some result => result
  | none => match x, y with
    | .finite x, .finite y => .finite <$> x.add p y
    | .infinity a, .infinity b => if a = b then .ok (.infinity a) else .error .invalidOperation
    | .infinity a, _ => .ok (.infinity a)
    | _, y => .ok y

/-- The difference, which is the sum with the second operand negated. -/
def sub (p : Precision) (x y : Decimal) : Except Condition Decimal :=
  match nanResult? p x y with
  | some result => result
  | none => x.add p y.neg

/-- The absolute value. -/
def abs : Decimal → Decimal
  | .finite x => .finite x.abs
  | .infinity _ => .infinity false
  | x => x

/-- Whether the sign is minus. -/
def isNegative : Decimal → Bool
  | .finite x => x.negative
  | .infinity negative => negative
  | .nan negative _ _ => negative

/-- Whether the value is a zero. -/
def isZero : Decimal → Bool
  | .finite x => x.isZero
  | _ => false

/-- The product. Zero times infinity has none. -/
def mul (p : Precision) (x y : Decimal) : Except Condition Decimal :=
  match nanResult? p x y with
  | some result => result
  | none => match x, y with
    | .finite x, .finite y => .finite <$> x.mul p y
    | x, y =>
      if x.isZero || y.isZero then .error .invalidOperation
      else .ok (.infinity (x.isNegative != y.isNegative))

/-- The quotient. A finite number divided by infinity is the smallest zero. -/
def div (p : Precision) (x y : Decimal) : Except Condition Decimal :=
  match nanResult? p x y with
  | some result => result
  | none => match x, y with
    | .finite x, .finite y => .finite <$> x.div p y
    | .finite x, y => .ok (.finite ⟨x.negative != y.isNegative, 0, p.leastExponent⟩)
    | x, .finite y => .ok (.infinity (x.isNegative != y.negative))
    | _, _ => .error .invalidOperation

end Decimal

end FuzzyCalc
