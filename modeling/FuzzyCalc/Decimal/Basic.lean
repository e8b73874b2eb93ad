import FuzzyCalc.Decimal.Digits

/-!
# Decimal numbers

A finite decimal is a sign, a coefficient and a power of ten. `0.6` and `0.60` are two decimals of
one numeric value: the exponent is part of the number, and a zero has a sign and an exponent too.
Beside the finite decimals stand the two infinities and the results that are not a number.

The order of finite decimals is the order of the rational numbers that they denote: two decimals
are compared as multiples of the smaller of their powers of ten. An exponent may have eighteen
digits, so a power of ten is formed only where there is a coefficient to multiply: a zero is the
zeroth multiple of every power, and the sign alone says whether a number lies below zero.
-/

namespace FuzzyCalc

/-- The finite decimal `± coefficient · 10 ^ exponent`. -/
structure FiniteDecimal where
  /-- Whether the sign is minus; zero has a sign of its own. -/
  negative : Bool
  /-- The digits, read as a natural number. -/
  coefficient : Nat
  /-- The power of ten that the last digit counts. -/
  exponent : Int
  deriving DecidableEq, Repr, Inhabited

/-- A decimal number: finite, infinite, or not a number. A value that is not a number keeps a sign
and a payload, and is either quiet or signaling. -/
inductive Decimal where
  /-- A finite decimal. -/
  | finite (x : FiniteDecimal)
  /-- Larger, or if negative smaller, than every finite decimal. -/
  | infinity (negative : Bool)
  /-- Not a number; the payload `0` means that there is none. -/
  | nan (negative signaling : Bool) (payload : Nat)
  deriving DecidableEq, Repr, Inhabited

namespace FiniteDecimal

/-- The natural number `n` as a decimal with exponent zero. -/
def ofNat (n : Nat) : FiniteDecimal := ⟨false, n, 0⟩

/-- Whether the numeric value is zero, whatever sign and exponent. -/
def isZero (x : FiniteDecimal) : Bool := x.coefficient == 0

/-- The coefficient with its sign. -/
def signed (x : FiniteDecimal) : Int :=
  if x.negative then -(x.coefficient : Int) else x.coefficient

/-- The multiple of `10 ^ e` that `x` is, for any `e` up to its exponent. -/
def alignedTo (e : Int) (x : FiniteDecimal) : Int :=
  if x.isZero then 0 else x.signed * (Digits.tenTo (x.exponent - e).toNat : Nat)

/-- The order of the numeric values. -/
def order (x y : FiniteDecimal) : Ordering :=
  let e := min x.exponent y.exponent
  compare (x.alignedTo e) (y.alignedTo e)

/-- The same number with the other sign. -/
def neg (x : FiniteDecimal) : FiniteDecimal := { x with negative := !x.negative }

/-- The same number without its sign. -/
def abs (x : FiniteDecimal) : FiniteDecimal := { x with negative := false }

end FiniteDecimal

namespace Decimal

/-- The natural number `n` as a decimal. -/
def ofNat (n : Nat) : Decimal := .finite (.ofNat n)

/-- Zero, which is also the answer "no". -/
def zero : Decimal := .ofNat 0

/-- One, which is also the answer "yes". -/
def one : Decimal := .ofNat 1

/-- The number with the other sign. -/
def neg : Decimal → Decimal
  | .finite x => .finite x.neg
  | .infinity negative => .infinity (!negative)
  | .nan negative signaling payload => .nan (!negative) signaling payload

/-- Whether a value signals as soon as an operation touches it. -/
def isSignaling : Decimal → Bool
  | .nan _ signaling _ => signaling
  | _ => false

/-- The order of two numbers; nothing is comparable with a value that is not a number. -/
def order? : Decimal → Decimal → Option Ordering
  | .finite x, .finite y => some (x.order y)
  | .finite _, .infinity negative => some (if negative then .gt else .lt)
  | .infinity negative, .finite _ => some (if negative then .lt else .gt)
  | .infinity false, .infinity true => some .gt
  | .infinity true, .infinity false => some .lt
  | .infinity _, .infinity _ => some .eq
  | _, _ => none

/-- Whether a number lies below zero. Minus zero does not. -/
def isBelowZero : Decimal → Bool
  | .finite x => x.negative && !x.isZero
  | .infinity negative => negative
  | .nan .. => false

end Decimal

end FuzzyCalc
