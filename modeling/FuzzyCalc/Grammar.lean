import FuzzyCalc.Operator

/-!
# The grammar of expressions

Without precedence an expression is a level: an operand, followed by binary operators with their
right operands and by postfix operators, each of which acts on all of the level before it. An operand
is a number or a level in parentheses, with prefix operators in front that act from the inside out.
Levels and operands are trees; they are written as tokens, and evaluated from left to right.
-/

namespace FuzzyCalc

mutual

/-- An operand: a number or a level in parentheses, behind prefix operators. -/
inductive Operand where
  /-- A number. -/
  | number (x : Decimal)
  /-- A level in parentheses. -/
  | group (level : Level)
  /-- An operator in front of an operand. -/
  | prefixed (op : PrefixOp) (operand : Operand)

/-- A level: an operand, and what follows it up to the closing parenthesis or the end. -/
inductive Level where
  /-- An operand alone. -/
  | single (operand : Operand)
  /-- A level so far, and a binary operator with its right operand. -/
  | binary (left : Level) (op : BinaryOp) (right : Operand)
  /-- A level so far, and a postfix operator. -/
  | postfixed (level : Level) (op : PostfixOp)

end

mutual

/-- The tokens of an operand. -/
def Operand.tokens : Operand → List Token
  | .number x => [.number x]
  | .group level => .opening :: (level.tokens ++ [.closing])
  | .prefixed op operand => .symbol (.prefixOp op) :: operand.tokens

/-- The tokens of a level. -/
def Level.tokens : Level → List Token
  | .single operand => operand.tokens
  | .binary left op right => left.tokens ++ .symbol (.binaryOp op) :: right.tokens
  | .postfixed level op => level.tokens ++ [.symbol (.postfixOp op)]

end

mutual

/-- The value of an operand, or the first failure. -/
def Operand.eval (p : Precision) : Operand → Except Cause Decimal
  | .number x => .ok x
  | .group level => level.eval p
  | .prefixed op operand => do op.apply p (← operand.eval p)

/-- The value of a level, or the first failure. -/
def Level.eval (p : Precision) : Level → Except Cause Decimal
  | .single operand => operand.eval p
  | .binary left op right => do
    let x ← left.eval p
    let y ← right.eval p
    op.apply p x y
  | .postfixed level op => do op.apply p (← level.eval p)

end

end FuzzyCalc
