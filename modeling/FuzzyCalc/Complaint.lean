import FuzzyCalc.Letter
import FuzzyCalc.Token
import FuzzyCalc.Decimal.Rounding

/-!
# Complaints

A line can go wrong in five kinds of ways, each with a few causes. A cause holds what it is about,
and its message is built from that. While a line is evaluated a cause becomes a complaint, which
also tells what the line had come down to before, and the offset in the line where the trouble
begins.
-/

namespace FuzzyCalc

/-- The kinds of causes. -/
inductive Cause.Kind where
  /-- Text that is no token. -/
  | scan
  /-- A bad variable name, or a variable that has no value. -/
  | unknownVariable
  /-- A token that cannot follow what is before it. -/
  | grammar
  /-- A line that does not come down to one number. -/
  | structural
  /-- An operator with operands outside its range. -/
  | domain
  deriving DecidableEq, Repr, Inhabited

/-- Why a line has no value. -/
inductive Cause where
  /-- A run of digits and points that is no numeral. -/
  | badNumeral (text : List Char)
  /-- A character that begins no token, and the one after it. -/
  | strayCharacter (c : Char) (next : Option Char)
  /-- A name that is not one of the letters. -/
  | badName (name : List Char)
  /-- A variable without a value. -/
  | unassigned (letter : Letter)
  /-- A number where an operator must stand. -/
  | numberAfter (x : Decimal) (prior : Token)
  /-- A prefix operator or an opening parenthesis where an operator must stand. -/
  | operandAfter (s : Symbol) (prior : Token)
  /-- A postfix operator with nothing before it. -/
  | postfixFirst (op : PostfixOp)
  /-- A postfix operator whose operand is missing. -/
  | postfixAfter (op : PostfixOp) (prior : Token)
  /-- A binary operator with nothing before it. -/
  | binaryFirst (op : BinaryOp)
  /-- A binary operator whose left operand is missing. -/
  | binaryAfter (op : BinaryOp) (prior : Token)
  /-- A closing parenthesis with nothing before it. -/
  | closingFirst
  /-- A closing parenthesis that does not follow a number. -/
  | closingAfter (prior : Token)
  /-- A closing parenthesis after a number that nothing precedes. -/
  | closingUnmatched (x : Decimal)
  /-- A closing parenthesis after a number that something else than an opening one precedes. -/
  | closingAcross (prior : Token) (x : Decimal)
  /-- Not exactly one token is left. -/
  | unreduced (residue : List Token)
  /-- The one token left is not a number. -/
  | notANumber (left : Token)
  /-- The complement of a number above one. -/
  | negativeComplement (x : Decimal)
  /-- A divisor that is not above zero. -/
  | nonpositiveDivisor (y : Decimal)
  /-- A power of a number that is not above zero, to a number that is not above zero. -/
  | nonpositivePower (x y : Decimal)
  /-- A disjunction below zero. -/
  | negativeDisjunction (x y result : Decimal)
  /-- An operation that the arithmetic has no result for. -/
  | outOfRange (operation : List Token) (condition : Condition)
  deriving DecidableEq, Repr, Inhabited

namespace Cause

/-- The kind of a cause. -/
def kind : Cause → Kind
  | badNumeral _ | strayCharacter _ _ => .scan
  | badName _ | unassigned _ => .unknownVariable
  | numberAfter _ _ | operandAfter _ _ | postfixFirst _ | postfixAfter _ _ | binaryFirst _
  | binaryAfter _ _ | closingFirst | closingAfter _ | closingUnmatched _ | closingAcross _ _ =>
    .grammar
  | unreduced _ | notANumber _ => .structural
  | negativeComplement _ | nonpositiveDivisor _ | nonpositivePower _ _
  | negativeDisjunction _ _ _ | outOfRange _ _ => .domain

/-- A text in double quotes, as it is. -/
def inQuotes (text : List Char) : String := "\"" ++ String.ofList text ++ "\""

/-- The message for a cause. -/
def message : Cause → String
  | badNumeral text => "Could not parse number: " ++ String.ofList text
  | strayCharacter c none => "Could not parse " ++ String.ofList [c] ++ " as token"
  | strayCharacter c (some next) =>
    "Could not parse " ++ String.ofList [c] ++ " or " ++ String.ofList [c, next] ++ " as token"
  | badName name => inQuotes name ++ " is not a valid variable name"
  | unassigned letter => "Variable " ++ String.ofList [letter.toChar] ++ " not assigned"
  | numberAfter x prior =>
    "number " ++ String.ofList x.numeral ++ " appended after token " ++ inQuotes prior.spelling
  | operandAfter s prior => inQuotes s.spelling ++ " appended after " ++ inQuotes prior.spelling
  | postfixFirst op => "Unary postfix operator " ++ inQuotes op.spelling ++ " was first token"
  | postfixAfter op prior =>
    "Unary postfix operator " ++ inQuotes op.spelling ++ " appended after non-numeric token " ++
      inQuotes prior.spelling
  | binaryFirst op => "Binary operator " ++ inQuotes op.spelling ++ " was first token"
  | binaryAfter op prior =>
    "Binary operator " ++ inQuotes op.spelling ++ " appended after non-numeric token " ++
      inQuotes prior.spelling
  | closingFirst => inQuotes Separator.closing.spelling ++ " was first token"
  | closingAfter prior =>
    inQuotes Separator.closing.spelling ++ " appended after non-numeric token " ++
      inQuotes prior.spelling
  | closingUnmatched x =>
    inQuotes Separator.closing.spelling ++ " has no matching " ++
      inQuotes Separator.opening.spelling ++ " before number " ++ String.ofList x.numeral
  | closingAcross prior x =>
    inQuotes Separator.closing.spelling ++ " appended after non-" ++
      inQuotes Separator.opening.spelling ++ " token " ++ inQuotes prior.spelling ++
      " and number " ++ String.ofList x.numeral
  | unreduced residue => "Expression reduced to " ++ inQuotes (Token.spellAll residue)
  | notANumber left => "Expression reduced to non-numeric token " ++ inQuotes left.spelling
  | negativeComplement x =>
    String.ofList (PrefixOp.complement.spelling ++ x.numeral) ++ " resulted in a negative number"
  | nonpositiveDivisor y => "Attempted to divide by non-positive number " ++ String.ofList y.numeral
  | nonpositivePower x y =>
    "Attempted to raise " ++ String.ofList x.numeral ++ " to the " ++ String.ofList y.numeral ++
      "th power"
  | negativeDisjunction x y result =>
    String.ofList x.numeral ++ " " ++ String.ofList BinaryOp.disjunction.spelling ++ " " ++
      String.ofList y.numeral ++ " produces negative number " ++ String.ofList result.numeral
  | outOfRange operation condition =>
    String.ofList (Token.spellAll operation) ++ " is out of range (" ++ condition.name ++ ")"

end Cause

/-- A cause with its place: the tokens that the line had come down to, if any had been read, and the
offset at which the trouble begins, if there is such a place. -/
structure Complaint where
  /-- What is wrong. -/
  cause : Cause
  /-- What the line had come down to, unless the cause speaks for itself. -/
  reached : Option (List Token)
  /-- Where in the line the trouble begins. -/
  offset : Option Nat
  deriving DecidableEq, Repr, Inhabited

namespace Complaint

/-- A cause that needs no more context. -/
def bare (cause : Cause) (offset : Option Nat) : Complaint := ⟨cause, none, offset⟩

/-- The whole text of a complaint. -/
def message (complaint : Complaint) : String :=
  match complaint.reached with
  | none => complaint.cause.message
  | some residue =>
    "Expression reduced to \"" ++ String.ofList (Token.spellAll residue) ++ "...\" " ++
      complaint.cause.message ++ "."

end Complaint

end FuzzyCalc
