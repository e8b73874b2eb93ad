import FuzzyCalc.Decimal.Basic
import FuzzyCalc.Text.Blank
import FuzzyCalc.Text.DecimalDigit

/-!
# Numerals

Numbers are written out in positional notation, never with an exponent: a number with a negative
exponent has that many decimals, one with a positive exponent ends in that many zeros, and a zero
with a positive exponent is just `0`. Two grammars read numerals. A plain numeral is a run of digits
with at most one point. A full numeral may have a sign, an exponent, digits of any script,
underscores anywhere and blanks around, or be one of the words for what is not finite.
-/

namespace FuzzyCalc

namespace FiniteDecimal

/-- Put a point before the last `decimals` digits, with zeros in front to have a digit before it. -/
def insertPoint (decimals : Nat) (digits : List Char) : List Char :=
  let padded := List.replicate (decimals + 1 - digits.length) '0' ++ digits
  let whole := padded.length - decimals
  padded.take whole ++ '.' :: padded.drop whole

/-- The numeral of a finite decimal without its sign. -/
def unsignedNumeral (x : FiniteDecimal) : List Char :=
  let digits := Digits.write x.coefficient
  match x.exponent with
  | .ofNat zeros => if x.isZero then digits else digits ++ List.replicate zeros '0'
  | .negSucc n => insertPoint (n + 1) digits

/-- The numeral of a finite decimal. -/
def numeral (x : FiniteDecimal) : List Char :=
  if x.negative then '-' :: x.unsignedNumeral else x.unsignedNumeral

/-- Read a plain numeral: digits, at least one, with at most one point among them. The exponent is
minus the number of digits after the point. -/
def ofPlainNumeral? (text : List Char) : Option FiniteDecimal :=
  let whole := text.takeWhile Digits.isDigit
  match text.dropWhile Digits.isDigit with
  | [] => if whole.isEmpty then none else some ⟨false, Digits.read whole, 0⟩
  | '.' :: decimals =>
    if decimals.all Digits.isDigit && !(whole.isEmpty && decimals.isEmpty) then
      some ⟨false, Digits.read (whole ++ decimals), -decimals.length⟩
    else none
  | _ => none

end FiniteDecimal

namespace Decimal

/-- The digits of a payload; there are none if it is zero. -/
def payloadNumeral (payload : Nat) : List Char := if payload = 0 then [] else Digits.write payload

/-- The numeral of a number, or the word for it. -/
def numeral : Decimal → List Char
  | .finite x => x.numeral
  | .infinity negative => (if negative then ['-'] else []) ++ "Infinity".toList
  | .nan negative signaling payload =>
    (if negative then ['-'] else []) ++ (if signaling then ['s'] else []) ++ "NaN".toList ++
      payloadNumeral payload

/-- The least exponent that a numeral may have. -/
def leastNumeralExponent : Int := -1999999999999999997

/-- The largest exponent that the leading digit of a numeral may have. -/
def largestNumeralExponent : Int := 999999999999999999

/-- Read an integer with an optional sign and at least one digit. -/
def readSigned? (text : List Char) : Option Int :=
  let (negative, digits) := match text with
    | '-' :: rest => (true, rest)
    | '+' :: rest => (false, rest)
    | rest => (false, rest)
  if digits.isEmpty || !digits.all Digits.isDigit then none
  else some (if negative then -(Digits.read digits : Int) else Digits.read digits)

/-- Read the part of a numeral after the sign, if it is finite: a plain numeral and perhaps an
exponent. -/
def readFinite? (negative : Bool) (text : List Char) : Option Decimal := do
  let isMark := fun c : Char ↦ c == 'e' || c == 'E'
  let plain ← FiniteDecimal.ofPlainNumeral? (text.takeWhile fun c ↦ !isMark c)
  let shift ← match text.dropWhile fun c ↦ !isMark c with
    | [] => some 0
    | _ :: exponent => readSigned? exponent
  let x : FiniteDecimal := ⟨negative, plain.coefficient, plain.exponent + shift⟩
  if leastNumeralExponent ≤ x.exponent ∧
      x.exponent + Digits.count x.coefficient - 1 ≤ largestNumeralExponent then
    some (.finite x)
  else none

/-- Read the word for a value that is not a number, in lower case, with its payload. -/
def readNan? (negative : Bool) (lower : List Char) : Option Decimal :=
  let (signaling, rest) := match lower with
    | 's' :: rest => (true, rest)
    | rest => (false, rest)
  match rest with
  | 'n' :: 'a' :: 'n' :: digits =>
    if digits.all Digits.isDigit then some (.nan negative signaling (Digits.read digits)) else none
  | _ => none

/-- Read what follows the sign of a numeral. -/
def readUnsigned? (negative : Bool) (text : List Char) : Option Decimal :=
  let lower := text.map Char.toLower
  if lower = "inf".toList ∨ lower = "infinity".toList then some (.infinity negative)
  else (readNan? negative lower).or (readFinite? negative text)

/-- The ASCII digit for a digit of any script; other characters stay. -/
def toAsciiDigit (c : Char) : Char :=
  match Text.digitValue? c with
  | some d => Digits.toChar d
  | none => c

/-- Read a full numeral. -/
def ofNumeral? (text : List Char) : Option Decimal :=
  match ((Text.trim text).filter (· != '_')).map toAsciiDigit with
  | '-' :: rest => readUnsigned? true rest
  | '+' :: rest => readUnsigned? false rest
  | rest => readUnsigned? false rest

end Decimal

end FuzzyCalc
