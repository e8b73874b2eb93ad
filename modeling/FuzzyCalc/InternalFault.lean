import FuzzyCalc.Decimal.Digits
import FuzzyCalc.Text.Quoted

/-!
# Internal faults

Some things cannot go wrong for a line, but can for a caller who starts from an arbitrary stack or
hands over something that is no token. They have messages of their own.
-/

namespace FuzzyCalc

/-- A thing that is not a token. -/
inductive Foreign where
  /-- A text. -/
  | text (chars : List Char)
  /-- An integer. -/
  | integer (n : Int)
  /-- Nothing at all. -/
  | nothing
  deriving DecidableEq, Repr, Inhabited

/-- How messages show a thing that is not a token. -/
def Foreign.picture : Foreign → List Char
  | .text chars => Text.quoted chars
  | .integer n => Digits.writeInt n
  | .nothing => "None".toList

/-- A fault of the caller or of the program, not of the line. -/
inductive InternalFault where
  /-- A binary operator lacked its left operand. -/
  | missingOperand
  /-- What was offered is not a token. -/
  | notAToken (thing : Foreign)
  deriving DecidableEq, Repr, Inhabited

/-- The message for an internal fault. -/
def InternalFault.message : InternalFault → String
  | missingOperand => "Peach internal error: binary operator without a left operand"
  | notAToken thing =>
    "Peach internal error: " ++ String.ofList thing.picture ++ " is not a kind of token"

end FuzzyCalc
