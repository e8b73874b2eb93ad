import FuzzyCalc.Operator

/-!
# The stack that reduces itself

Tokens are pushed one at a time. A number does not stay on top of an operator that waits for it: the
operator is applied at once, and its result goes on in the same way, down to an opening parenthesis
or the bottom. So operators act in the order of their arrival, and only parentheses make one wait.
A token that cannot follow what is on the stack is refused, and so is an operation without a result.
-/

namespace FuzzyCalc

/-- The tokens that wait, the last one first. -/
abbrev Stack := List Token

/-- Why a token was not taken. -/
inductive Refusal where
  /-- The token does not fit or an operation failed; nothing has changed. -/
  | fault (cause : Cause)
  /-- A binary operator lacked its left operand, which no sequence of pushes onto the empty stack
  brings about; what is left of the stack. -/
  | breach (rest : Stack)
  deriving DecidableEq, Repr, Inhabited

namespace Stack

/-- The tokens in the order of their arrival. -/
def residue (stack : Stack) : List Token := stack.reverse

/-- Put a number on the stack, after applying every operator that waits for it. -/
def settle (p : Precision) : Stack → Decimal → Except Refusal Stack
  | [], x => .ok [.number x]
  | .symbol (.separator .opening) :: below, x =>
    .ok (.number x :: .symbol (.separator .opening) :: below)
  | .symbol (.prefixOp op) :: below, x =>
    match op.apply p x with
    | .ok y => settle p below y
    | .error cause => .error (.fault cause)
  | .symbol (.binaryOp op) :: .number left :: below, x =>
    match op.apply p left x with
    | .ok y => settle p below y
    | .error cause => .error (.fault cause)
  | .symbol (.binaryOp _) :: below, _ => .error (.breach below.tail)
  | prior :: _, x => .error (.fault (.numberAfter x prior))

/-- Push a symbol that begins an operand: a prefix operator or an opening parenthesis. -/
def awaitOperand (stack : Stack) (s : Symbol) : Except Refusal Stack :=
  match stack with
  | [] | .symbol (.separator .opening) :: _ | .symbol (.prefixOp _) :: _
  | .symbol (.binaryOp _) :: _ => .ok (.symbol s :: stack)
  | prior :: _ => .error (.fault (.operandAfter s prior))

/-- Apply a postfix operator to the number on top. -/
def applyPostfix (p : Precision) (stack : Stack) (op : PostfixOp) : Except Refusal Stack :=
  match stack with
  | [] => .error (.fault (.postfixFirst op))
  | .number x :: below =>
    match op.apply p x with
    | .ok y => settle p below y
    | .error cause => .error (.fault cause)
  | prior :: _ => .error (.fault (.postfixAfter op prior))

/-- Push a binary operator, which waits for its right operand. -/
def awaitRight (stack : Stack) (op : BinaryOp) : Except Refusal Stack :=
  match stack with
  | [] => .error (.fault (.binaryFirst op))
  | .number _ :: _ => .ok (.symbol (.binaryOp op) :: stack)
  | prior :: _ => .error (.fault (.binaryAfter op prior))

/-- Close a parenthesis: the number in it goes to what waits before it. -/
def close (p : Precision) (stack : Stack) : Except Refusal Stack :=
  match stack with
  | [] => .error (.fault .closingFirst)
  | [.number x] => .error (.fault (.closingUnmatched x))
  | .number x :: .symbol (.separator .opening) :: below => settle p below x
  | .number x :: prior :: _ => .error (.fault (.closingAcross prior x))
  | prior :: _ => .error (.fault (.closingAfter prior))

/-- Push a token. -/
def push (p : Precision) (stack : Stack) : Token → Except Refusal Stack
  | .number x => settle p stack x
  | .symbol (.separator .opening) => awaitOperand stack (.separator .opening)
  | .symbol (.separator .closing) => close p stack
  | .symbol (.prefixOp op) => awaitOperand stack (.prefixOp op)
  | .symbol (.postfixOp op) => applyPostfix p stack op
  | .symbol (.binaryOp op) => awaitRight stack op

end Stack

end FuzzyCalc
