import FuzzyCalc.Complaint
import FuzzyCalc.Decimal.Power

/-!
# What the operators do

Each operator maps its operands to a number, or to the cause why there is none: operands outside its
range, or an operation that the arithmetic refuses. Truth is one and falsity is zero. A comparison
is exact, and minimum and maximum are one of the operands, unrounded; all other results are rounded.
-/

namespace FuzzyCalc

namespace Decimal

/-- One for yes, zero for no. -/
def ofBool (yes : Bool) : Decimal := if yes then one else zero

/-- The order of two numbers, which must be comparable. -/
def order (x y : Decimal) : Except Condition Ordering :=
  match x.order? y with
  | some o => .ok o
  | none => .error .invalidOperation

/-- Whether two numbers are equal; a value that is not a number equals nothing. -/
def equals (x y : Decimal) : Except Condition Bool :=
  if x.isSignaling || y.isSignaling then .error .invalidOperation
  else .ok (x.order? y == some .eq)

/-- Whether a number is zero or less. -/
def isAtMostZero (x : Decimal) : Except Condition Bool := (·.isLE) <$> x.order zero

/-- The sum less the product, each of the three results rounded. -/
def disjunction (p : Precision) (x y : Decimal) : Except Condition Decimal := do
  let sum ← x.add p y
  let product ← x.mul p y
  sum.sub p product

/-- Half of the sum, both results rounded. -/
def average (p : Precision) (x y : Decimal) : Except Condition Decimal := do
  let sum ← x.add p y
  sum.div p (.ofNat 2)

end Decimal

/-- The answer of the arithmetic, where a refusal becomes a cause that shows the operation. -/
def attempt {α : Type} (operation : List Token) (answer : Except Condition α) : Except Cause α :=
  answer.mapError (.outOfRange operation)

/-- Apply a prefix operator. -/
def PrefixOp.apply (p : Precision) (op : PrefixOp) (x : Decimal) : Except Cause Decimal :=
  let operation := [.symbol (.prefixOp op), .number x]
  match op with
  | .complement => do
    let o ← attempt operation (x.order .one)
    if o.isGT then .error (.negativeComplement x)
    else attempt operation (Decimal.one.sub p x)
  | .possible => attempt operation ((.ofBool ·.isGT) <$> x.order .zero)
  | .certain => attempt operation ((.ofBool ·.isGE) <$> x.order .one)

/-- Apply a postfix operator. -/
def PostfixOp.apply (p : Precision) (op : PostfixOp) (x : Decimal) : Except Cause Decimal :=
  let operation := [.number x, .symbol (.postfixOp op)]
  match op with
  | .percent => attempt operation (x.div p (.ofNat 100))

/-- Apply a binary operator. -/
def BinaryOp.apply (p : Precision) (op : BinaryOp) (x y : Decimal) : Except Cause Decimal :=
  let operation := [.number x, .symbol (.binaryOp op), .number y]
  match op with
  | .equal => attempt operation (.ofBool <$> x.equals y)
  | .less => attempt operation ((.ofBool ·.isLT) <$> x.order y)
  | .more => attempt operation ((.ofBool ·.isGT) <$> x.order y)
  | .notEqual => attempt operation ((.ofBool !·) <$> x.equals y)
  | .lessOrEqual => attempt operation ((.ofBool ·.isLE) <$> x.order y)
  | .moreOrEqual => attempt operation ((.ofBool ·.isGE) <$> x.order y)
  | .sum => attempt operation (x.add p y)
  | .difference => attempt operation (Decimal.abs <$> x.sub p y)
  | .product => attempt operation (x.mul p y)
  | .quotient => do
    if ← attempt operation y.isAtMostZero then .error (.nonpositiveDivisor y)
    else attempt operation (x.div p y)
  | .power => do
    if ← attempt operation x.isAtMostZero then
      if ← attempt operation y.isAtMostZero then .error (.nonpositivePower x y)
      else attempt operation (x.pow p y)
    else attempt operation (x.pow p y)
  | .minimum => attempt operation ((fun o ↦ if o.isLE then x else y) <$> x.order y)
  | .average => attempt operation (x.average p y)
  | .maximum => attempt operation ((fun o ↦ if o.isGE then x else y) <$> x.order y)
  | .disjunction => do
    let result ← attempt operation (x.disjunction p y)
    let o ← attempt operation (result.order .zero)
    if o.isLT then .error (.negativeDisjunction x y result) else .ok result

end FuzzyCalc
