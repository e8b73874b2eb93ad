import FuzzyCalc.Decimal.Arithmetic
import FuzzyCalc.Decimal.FixedPoint

/-!
# Powers

An integer power is a chain of rounded products at a precision somewhat higher than asked for. Any
other power goes through the logarithm, is computed to far more digits than asked for, and always
comes out with all the digits of the precision. A power of one keeps its decimals, multiplied by the
exponent. A power that is out of range by orders of magnitude is refused without computing it.
-/

namespace FuzzyCalc

namespace FiniteDecimal

/-- The absolute value as a natural number, if the decimal is an integer. -/
def natAbs? (x : FiniteDecimal) : Option Nat :=
  if x.isZero then some 0
  else if 0 ≤ x.exponent then some (x.coefficient * Digits.tenTo x.exponent.toNat)
  else if x.leadingExponent < 0 then none
  else
    let unit := Digits.tenTo (-x.exponent).toNat
    if x.coefficient % unit = 0 then some (x.coefficient / unit) else none

/-- The number `10 ^ -decimals`, written `1` with that many decimals. -/
def oneWith (negative : Bool) (decimals : Nat) : FiniteDecimal :=
  ⟨negative, Digits.tenTo decimals, -decimals⟩

/-- The `n`-th power of `x` for positive `n`, from the leading binary digit of `n` down: each step
squares, and multiplies by `x` at a one. -/
def powFromTop (p : Precision) (x : FiniteDecimal) (n : Nat) : Except Condition FiniteDecimal :=
  if n ≤ 1 then .ok x
  else do
    let half ← powFromTop p x (n / 2)
    let square ← half.mul p half
    if n % 2 = 1 then square.mul p x else .ok square
termination_by n
decreasing_by omega

/-- The product of `product` and the `n`-th power of `x`, from the last binary digit of `n` up. -/
def powFromBottom (p : Precision) (product x : FiniteDecimal) (n : Nat) :
    Except Condition FiniteDecimal :=
  if n = 0 then .ok product
  else do
    let product ← if n % 2 = 1 then product.mul p x else .ok product
    if n = 1 then .ok product
    else
      let square ← x.mul p x
      powFromBottom p product square (n / 2)
termination_by n
decreasing_by omega

/-- The first exponent that is raised to from the last binary digit up. -/
def powFromBottomStart : Nat := 0x10000000000000000

/-- The power of `x` to the integer `y` of absolute value `n`. The working precision covers the
digits of `n`; for a negative `y` the reciprocal of `x` is raised, at one digit more. -/
def powInteger (p : Precision) (x y : FiniteDecimal) (n : Nat) : Except Condition FiniteDecimal := do
  let working := p.extend (y.leadingExponent + 3).toNat
  let working := if y.negative then working.extend 1 else working
  let base ← if y.negative then (FiniteDecimal.ofNat 1).div working x else .ok x
  let power ←
    if n < powFromBottomStart then powFromTop working base n
    else powFromBottom working (.ofNat 1) base n
  power.round p

/-- A lower bound for the power of ten in the absolute value of the decimal logarithm of a positive
`x` other than one. -/
def logMagnitude (x : FiniteDecimal) : Int :=
  if x.leadingExponent < -1 ∨ 0 < x.leadingExponent then 0
  else
    let one := Digits.tenTo (-x.exponent).toNat
    let difference := max (x.coefficient - one) (one - x.coefficient)
    (⟨false, difference, x.exponent⟩ : FiniteDecimal).leadingExponent - 1

/-- Whether a power whose decimal logarithm has at least this power of ten is out of range. -/
def beyondRange (magnitude : Int) : Bool := 7 ≤ magnitude

/-- What becomes of a power of `x` that is out of range. -/
def outOfRange (x y : FiniteDecimal) : Condition :=
  if (x.abs.order (.ofNat 1) == .gt) != y.negative then .overflow else .underflow

/-- The power of a positive `x` other than one to a `y` that is not an integer, through
`exp (y · ln x)`. It counts as inexact, so one below the exponent range has lost digits.

The result is to be the exact power, correctly rounded, so an exact power halfway between two
results goes to the even one: at three digits `2.25 ^ 1.5`, which is 3.375, is 3.38. Decimal
libraries that round an approximation with a few digits more can miss such a tie from below, and
then give 3.37; only at such ties do they differ. -/
def powReal (p : Precision) (x y : FiniteDecimal) : Except Condition FiniteDecimal :=
  let digits := 2 * max p.digits (max (Digits.count x.coefficient) (Digits.count y.coefficient)) + 40
  let scale := digits + 20 + (y.leadingExponent + 1).toNat
  let f := scale * 10 / 3 + 8
  let lnTen := FixedPoint.ln f 10
  let lnX := FixedPoint.ln f x.coefficient + x.exponent * lnTen
  let logarithm := y.signed * lnX / (Digits.tenTo (-y.exponent).toNat : Nat)
  let exponent := logarithm / lnTen
  if maxExponent < exponent then .error .overflow
  else if exponent + 1 < minExponent then .error .underflow
  else
    let significand := FixedPoint.exp f (logarithm % lnTen).toNat
    let coefficient := (significand * Digits.tenTo digits + 1 <<< (f - 1)) >>> f
    let power : FiniteDecimal := ⟨false, coefficient, exponent - digits⟩
    if power.leadingExponent < minExponent then .error .underflow else power.round p

/-- The power of a nonzero `x` to a nonzero `y`. -/
def pow (p : Precision) (x y : FiniteDecimal) : Except Condition FiniteDecimal :=
  let n? := y.natAbs?
  let negative := x.negative && (n?.any (· % 2 = 1))
  if x.negative && n?.isNone then .error .invalidOperation
  else if x.abs.order (.ofNat 1) == .eq then
    match n? with
    | some n =>
      if y.negative then .ok (oneWith negative 0)
      else .ok (oneWith negative (min (p.digits - 1) (n * (-x.exponent).toNat)))
    | none => .ok (oneWith negative (p.digits - 1))
  else if beyondRange (y.leadingExponent + x.abs.logMagnitude) then .error (x.outOfRange y)
  else match n? with
    | some n => x.powInteger p y n
    | none => x.powReal p y

end FiniteDecimal

namespace Decimal

/-- Whether a finite number is an odd integer. -/
def isOdd : Decimal → Bool
  | .finite x => x.natAbs?.any (· % 2 = 1)
  | _ => false

/-- The power of a finite number to an infinite one: only a power of one is not extreme. -/
def powInfinite (p : Precision) (x : FiniteDecimal) (negative : Bool) : Except Condition Decimal :=
  if x.negative then .error .invalidOperation
  else match x.order (.ofNat 1) with
    | .eq => .ok (.finite (.oneWith false (p.digits - 1)))
    | .gt => .ok (if negative then zero else .infinity false)
    | .lt => .ok (if negative then .infinity false else zero)

/-- The power of `x` to `y`. Powers of a zero are zero, or infinite if `y` is negative. -/
def pow (p : Precision) (x y : Decimal) : Except Condition Decimal :=
  match nanResult? p x y with
  | some result => result
  | none =>
    let negative := x.isNegative && y.isOdd
    if x.isZero then
      if y.isZero then .error .invalidOperation
      else .ok (if y.isNegative then .infinity negative else .finite ⟨negative, 0, 0⟩)
    else match x, y with
      | .finite x, .finite y =>
        if y.isZero then .ok one else .finite <$> x.pow p y
      | .finite x, _ => powInfinite p x y.isNegative
      | x, .finite y =>
        if x.isNegative && y.natAbs?.isNone then .error .invalidOperation
        else if y.isZero then .ok one
        else if y.negative then .ok (.finite ⟨negative, 0, 0⟩)
        else .ok (.infinity negative)
      | x, y =>
        if x.isNegative then .error .invalidOperation
        else .ok (if y.isNegative then zero else .infinity false)

end Decimal

end FuzzyCalc
