/-!
# Logarithm and exponential in fixed point

Numbers are held as multiples of `2 ^ -f`. Each power series is summed until its terms vanish at
that scale, and each term is cut, so a result is off by at most a few units for every term; callers
choose `f` with that many bits to spare.
-/

namespace FuzzyCalc.FixedPoint

/-- The sum of `power / k`, `power · square / (k + 2)`, `power · square ^ 2 / (k + 4)`, …, with at
most `terms` terms. -/
def oddPowerSum (f square : Nat) : (terms power k : Nat) → Nat
  | 0, _, _ => 0
  | terms + 1, power, k =>
    if power = 0 then 0
    else power / k + oddPowerSum f square terms ((power * square) >>> f) (k + 2)

/-- The inverse hyperbolic tangent of `n / d`, for `n` at most half of `d`. -/
def atanh (f n d : Nat) : Nat :=
  let z := (n <<< f) / d
  oddPowerSum f ((z * z) >>> f) (f + 1) z 1

/-- The natural logarithm of two, as `2 · atanh (1 / 3)`. -/
def lnTwo (f : Nat) : Nat := 2 * atanh f 1 3

/-- The natural logarithm of a positive number: that of the nearest power of two, and twice the
inverse hyperbolic tangent of difference over sum. -/
def ln (f n : Nat) : Int :=
  let below := n.log2
  let k := if 4 <<< below < 3 * n then below + 1 else below
  let power := 1 <<< k
  let near : Int :=
    if power ≤ n then (2 * atanh f (n - power) (n + power) : Nat)
    else -(2 * atanh f (power - n) (n + power) : Nat)
  near + (k * lnTwo f : Nat)

/-- The sum of `term`, `term · x / n`, `term · x ^ 2 / (n · (n + 1))`, …, with at most `terms`
terms. -/
def factorialSum (f x : Nat) : (terms term n : Nat) → Nat
  | 0, _, _ => 0
  | terms + 1, term, n =>
    if term = 0 then 0 else term + factorialSum f x terms (((term * x) >>> f) / n) (n + 1)

/-- The exponential of a number from zero to less than three. -/
def exp (f x : Nat) : Nat := factorialSum f x (f + 16) (1 <<< f) 1

end FuzzyCalc.FixedPoint
