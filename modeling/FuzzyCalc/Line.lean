import FuzzyCalc.Lexeme
import FuzzyCalc.Stack

/-!
# Evaluating a line

A line is an expression, or an assignment: a letter, a colon and an expression. The tokens of the
expression are pushed one by one; what is left must be one number. A failure at a token is reported
with what the expression had come down to before it. An assignment stores the number only if there
is one. Every step leaves an entry in a trace.
-/

namespace FuzzyCalc

/-- One line of a trace. -/
inductive TraceEntry where
  /-- A token at an offset was taken, and the stack after it. -/
  | taken (offset : Nat) (token : Token) (stack : Stack)
  /-- A variable got a value. -/
  | assigned (letter : Letter) (x : Decimal)
  deriving DecidableEq, Repr, Inhabited

namespace TraceEntry

/-- A text with blanks in front, to fill at least `width` characters. -/
def padLeft (width : Nat) (text : List Char) : List Char :=
  List.replicate (width - text.length) ' ' ++ text

/-- A text with blanks behind, to fill at least `width` characters. -/
def padRight (width : Nat) (text : List Char) : List Char :=
  text ++ List.replicate (width - text.length) ' '

/-- The text of a trace entry. -/
def line : TraceEntry → String
  | taken offset token stack =>
    String.ofList (padLeft 4 (Digits.write offset)) ++ "  " ++
      String.ofList (padRight 6 token.spelling) ++ " -> " ++
      String.ofList (Token.spellAll stack.residue)
  | assigned letter x =>
    String.ofList [letter.toChar] ++ " := " ++ String.ofList x.numeral

end TraceEntry

/-- Why evaluation stopped. -/
inductive Failure where
  /-- Something is wrong with the line. -/
  | complaint (complaint : Complaint)
  /-- A binary operator lacked its left operand. -/
  | breach
  deriving DecidableEq, Repr, Inhabited

/-- A computation that leaves a trace, up to its result or its failure. -/
structure Traced (α : Type) where
  /-- The entries in order. -/
  trace : List TraceEntry
  /-- How it ended. -/
  result : Except Failure α

namespace Stack

/-- Push tokens one by one, each with its offset. -/
def pushAll (p : Precision) (stack : Stack) : List (Nat × Token) → Traced Stack
  | [] => ⟨[], .ok stack⟩
  | (offset, token) :: rest =>
    match stack.push p token with
    | .ok next =>
      let run := pushAll p next rest
      ⟨.taken offset token next :: run.trace, run.result⟩
    | .error (.fault cause) =>
      ⟨[], .error (.complaint ⟨cause, some stack.residue, some offset⟩)⟩
    | .error (.breach _) => ⟨[], .error .breach⟩

/-- The number that an expression has come down to: the only token left. -/
def result (stack : Stack) : Except Cause Decimal :=
  match stack with
  | [.number x] => .ok x
  | [token] => .error (.notANumber token)
  | _ => .error (.unreduced stack.residue)

end Stack

/-- What an expression comes down to once its tokens have been pushed: first, what stopped the
scanner counts, then whether one number is left. -/
def concludeExpression (failure : Option (Nat × Cause)) (stack : Stack) : Except Failure Decimal :=
  match failure with
  | some (offset, cause) => .error (.complaint ⟨cause, some stack.residue, some offset⟩)
  | none => stack.result.mapError fun cause ↦ .complaint (.bare cause none)

/-- Evaluate the expression that begins at `start`. -/
def evaluateExpression (p : Precision) (m : Memory) (text : List Char) (start : Nat) :
    Traced Decimal :=
  let reading := Reading.scan m text start
  let run := Stack.pushAll p [] reading.tokens
  ⟨run.trace, run.result.bind (concludeExpression reading.failure)⟩

/-- What a line yields when nothing is wrong with it. -/
inductive Yield where
  /-- The value of an expression. -/
  | value (x : Decimal)
  /-- Nothing: a variable got a value. -/
  | assignment
  deriving DecidableEq, Repr, Inhabited

/-- An evaluated line: the trace, the outcome, and the variables afterwards. -/
structure Evaluation where
  /-- The entries in order. -/
  trace : List TraceEntry
  /-- How the evaluation ended. -/
  result : Except Failure Yield
  /-- The variables afterwards. -/
  memory : Memory

/-- Evaluate a line. -/
def evaluateLine (p : Precision) (m : Memory) (text : List Char) : Evaluation :=
  match text with
  | c :: ':' :: _ =>
    match Letter.ofChar? c with
    | none => ⟨[], .error (.complaint (.bare (.badName [c]) (some 0))), m⟩
    | some letter =>
      let run := evaluateExpression p m text 2
      match run.result with
      | .ok x => ⟨run.trace ++ [.assigned letter x], .ok .assignment, m.put letter x⟩
      | .error failure => ⟨run.trace, .error failure, m⟩
  | _ =>
    let run := evaluateExpression p m text 0
    ⟨run.trace, .value <$> run.result, m⟩

end FuzzyCalc
