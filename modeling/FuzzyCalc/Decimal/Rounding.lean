import FuzzyCalc.Decimal.Basic

/-!
# Rounding to a precision

Every computed result is an exact value rounded once: to at most the significant digits of the
precision, a half going to the even neighbour. The exponent range is fixed. A result beyond it is
refused with the condition that it meets, and so is a tiny result that would lose digits; a tiny
result that is exact is kept. The work depends on how many digits the result has, not on the
precision, which may be as large as `Precision.maxDigits`.
-/

namespace FuzzyCalc

/-- A positive number of significant digits. -/
structure Precision where
  /-- How many digits. -/
  digits : Nat
  /-- There is at least one. -/
  digits_pos : 0 < digits
  deriving DecidableEq, Repr

namespace Precision

/-- The precision used unless another is asked for. -/
def standard : Precision := ⟨28, by decide⟩

instance : Inhabited Precision := ⟨standard⟩

/-- The most digits that can be asked for. -/
def maxDigits : Nat := 999999999999999999

/-- The precision of `n` digits, if that is at least one and at most `maxDigits`. -/
def ofInt? (n : Int) : Option Precision :=
  if h : 0 < n.toNat then
    if n.toNat ≤ maxDigits then some ⟨n.toNat, h⟩ else none
  else none

/-- The message for a number of digits that is no precision. -/
def refusal (n : Int) : String :=
  if n < 1 then
    "Precision must be at least one digit, not " ++ String.ofList (Digits.writeInt n)
  else "valid range for prec is [1, MAX_PREC]"

/-- A precision of some digits more. -/
def extend (p : Precision) (n : Nat) : Precision := ⟨p.digits + n, Nat.add_pos_left p.digits_pos n⟩

end Precision

/-- Why an arithmetic operation has no result. -/
inductive Condition where
  /-- The operation has no meaning for its operands. -/
  | invalidOperation
  /-- A nonzero number divided by zero. -/
  | divisionByZero
  /-- The result is too large. -/
  | overflow
  /-- The result is too close to zero to keep its digits. -/
  | underflow
  deriving DecidableEq, Repr, Inhabited

/-- The name of a condition, as messages write it. -/
def Condition.name : Condition → String
  | .invalidOperation => "InvalidOperation"
  | .divisionByZero => "DivisionByZero"
  | .overflow => "Overflow"
  | .underflow => "Underflow"

/-- The largest exponent that the leading digit of a result may have. -/
def maxExponent : Int := 999999

/-- The smallest exponent that the leading digit may have before digits are at risk. -/
def minExponent : Int := -999999

/-- The smallest exponent that the last digit of a result may have. -/
def Precision.leastExponent (p : Precision) : Int := minExponent - (p.digits - 1)

/-- The natural number nearest to `n / d`; a half goes to the even neighbour. -/
def roundHalfEven (n d : Nat) : Nat :=
  let q := n / d
  match compare (2 * (n % d)) d with
  | .lt => q
  | .gt => q + 1
  | .eq => q + q % 2

namespace FiniteDecimal

/-- The exponent of the leading digit. -/
def leadingExponent (x : FiniteDecimal) : Int := x.exponent + Digits.count x.coefficient - 1

/-- The exponent that the last digit gets when `x` is rounded: the one it has, if the digits fit. -/
def roundedExponent (p : Precision) (x : FiniteDecimal) : Int :=
  max x.exponent (max (x.leadingExponent - (p.digits - 1)) p.leastExponent)

/-- Round an exact result. A zero only has its exponent moved into range. -/
def round (p : Precision) (x : FiniteDecimal) : Except Condition FiniteDecimal :=
  if x.isZero then
    .ok { x with exponent := max p.leastExponent (min x.exponent maxExponent) }
  else if x.leadingExponent < p.leastExponent then
    .error .underflow
  else if maxExponent < x.leadingExponent then
    .error .overflow
  else
    let e := x.roundedExponent p
    let unit := Digits.tenTo (e - x.exponent).toNat
    if x.leadingExponent < minExponent ∧ x.coefficient % unit ≠ 0 then
      .error .underflow
    else
      let c := roundHalfEven x.coefficient unit
      -- Rounding up may carry into one more digit than the precision has.
      let y : FiniteDecimal :=
        if p.digits < Digits.count c then ⟨x.negative, c / 10, e + 1⟩
        else ⟨x.negative, c, e⟩
      if maxExponent < y.leadingExponent then .error .overflow else .ok y

end FiniteDecimal

end FuzzyCalc
