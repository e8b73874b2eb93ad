/-!
# Decimal digits of natural numbers

Numbers here run to millions of digits, so a number is split in halves rather than digit by digit:
a block of `2 ^ k` digits is two blocks of `2 ^ (k - 1)` digits. Counting, writing and stripping
trailing zeros all go by such blocks, by recursion on `k`.
-/

namespace FuzzyCalc.Digits

/-- The number `10 ^ n`. -/
def tenTo (n : Nat) : Nat := Nat.pow 10 n

/-- The number of digits in a block, `2 ^ k`. -/
def blockLength (k : Nat) : Nat := Nat.pow 2 k

/-- The size of a block that holds `n`: for `k = blockSize n`, `n < 10 ^ 2 ^ k`. -/
def blockSize (n : Nat) : Nat := n.log2.log2 + 1

/-- The number of digits of `n`, which must be below `10 ^ 2 ^ k`; zero has one digit. -/
def countWithin : (k : Nat) → (n : Nat) → Nat
  | 0, _ => 1
  | k + 1, n =>
    let half := tenTo (blockLength k)
    if n < half then countWithin k n else blockLength k + countWithin k (n / half)

/-- The number of decimal digits of `n`; zero has one. -/
def count (n : Nat) : Nat := countWithin (blockSize n) n

/-- The character of a digit. -/
def toChar (d : Nat) : Char := Char.ofNat (48 + d % 10)

/-- The last `2 ^ k` digits of `n`, with leading zeros, in front of `tail`. -/
def block : (k : Nat) → (n : Nat) → (tail : List Char) → List Char
  | 0, n, tail => toChar n :: tail
  | k + 1, n, tail =>
    let half := tenTo (blockLength k)
    block k (n / half) (block k (n % half) tail)

/-- The decimal digits of `n` without leading zeros; zero is written with one digit. -/
def write (n : Nat) : List Char :=
  match (block (blockSize n) n []).dropWhile (· == '0') with
  | [] => ['0']
  | digits => digits

/-- The decimal digits of an integer, after a minus sign if it is negative. -/
def writeInt (n : Int) : List Char := if n < 0 then '-' :: write n.natAbs else write n.natAbs

/-- Whether a character is one of the ten ASCII digits. -/
def isDigit (c : Char) : Bool := '0' ≤ c && c ≤ '9'

/-- The value of a digit character. -/
def value (c : Char) : Nat := c.toNat - 48

/-- The number that a list of digits denotes; the empty list denotes zero. -/
def read (digits : List Char) : Nat := digits.foldl (fun n c ↦ 10 * n + value c) 0

/-- Divide `n` by the largest power of ten that divides it and has at most `limit` zeros and fewer
than `2 ^ (k + 1)`: the quotient, and the number of zeros taken off. -/
def stripWithin : (k limit n : Nat) → Nat × Nat
  | 0, limit, n => if 1 ≤ limit ∧ n % 10 = 0 then (n / 10, 1) else (n, 0)
  | k + 1, limit, n =>
    let zeros := blockLength (k + 1)
    if zeros ≤ limit ∧ n % tenTo zeros = 0 then
      let (rest, more) := stripWithin k (limit - zeros) (n / tenTo zeros)
      (rest, zeros + more)
    else stripWithin k limit n

/-- Take trailing zeros off `n`, as many as there are but at most `limit`: what is left, and how
many were taken. -/
def stripZeros (limit n : Nat) : Nat × Nat := stripWithin limit.log2 limit n

end FuzzyCalc.Digits
