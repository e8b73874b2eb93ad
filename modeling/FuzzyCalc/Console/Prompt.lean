import FuzzyCalc.Console.Output

/-!
# The prompt

At the prompt a line is a command word or something to evaluate. A line that ends in a backslash
goes on with the next one, which is taken as it is; command words do not go on. The prompt is a
machine that is fed one physical line at a time: between two lines it holds the variables and, if a
line is to go on, what has been typed of it.
-/

namespace FuzzyCalc.Console

/-- What is written before each line is read. -/
def promptText : List Char := "(`) ".toList

/-- What is written first of all. -/
def greeting : String := "Peach (`) : Enter \"?\" for help."

/-- What the prompt answers to a request for help. -/
def helpText : String :=
  "==== Peach (`) : An interpreted language for fuzzy logic ====\n" ++
  "One data type: Nonnegative decimal number (stored in base 10, not base 2)\n" ++
  "Unary operators\n" ++
  "  Negation, possibility, certainty: ~ <> []\n" ++
  "  One percent (postfix): %\n" ++
  "Binary operators\n" ++
  "  Standard arithmetic and comparison: + - * / ^ = ~= < <= > >=\n" ++
  "  (- gives the absolute difference)\n" ++
  "  Minimum, average, maximum: ! @ #\n" ++
  "  Disjunction (sum minus product): $\n" ++
  "Operators do not have precedence. Use parentheses for grouping.\n" ++
  "(`) [expression]\n" ++
  "  Display result of expression\n" ++
  "Use \"\\\" to continue an expression on the next line\n" ++
  "(`) p:[expression]\n" ++
  "  Assign result of expression to variable p\n" ++
  "52 variables are available, represented by the 52 case-sensitive letters\n" ++
  "(`) vars\n" ++
  "  List the variables assigned so far\n" ++
  "(`) clear\n" ++
  "  Forget every variable\n" ++
  "Leave with an empty line, exit, halt, or quit\n"

/-- The command words. -/
inductive Command where
  /-- Leave. -/
  | leave
  /-- Show the help. -/
  | help
  /-- List the variables. -/
  | vars
  /-- Forget all values. -/
  | clear
  deriving DecidableEq, Repr, Inhabited

/-- The command that a line without blanks around it is; case does not matter. -/
def Command.ofLine? (text : List Char) : Option Command :=
  let word := text.map Char.toLower
  if word = [] ∨ word = "exit".toList ∨ word = "halt".toList ∨ word = "quit".toList then some leave
  else if word = "?".toList ∨ word = "help".toList then some help
  else if word = "vars".toList then some vars
  else if word = "clear".toList then some clear
  else none

/-- The prompt between two physical lines. -/
structure Prompt where
  /-- The precision of the arithmetic. -/
  precision : Precision
  /-- Lines are traced unless this is zero. -/
  verbosity : Nat
  /-- The variables. -/
  memory : Memory
  /-- What has been typed of a line that goes on. -/
  pending : Option (List Char)

namespace Prompt

/-- The prompt at the start. -/
def start (p : Precision) (verbosity : Nat) : Prompt := ⟨p, verbosity, Memory.empty, none⟩

/-- What is written before the next line is read: nothing inside a line that goes on. -/
def invitation (prompt : Prompt) : List Output :=
  match prompt.pending with
  | none => [.out (String.ofList promptText)]
  | some _ => []

/-- What is written for an evaluated line. -/
def showEvaluation (verbosity : Nat) (text : List Char) (e : Evaluation) : List Output :=
  showTrace verbosity e.trace ++
    match e.result with
    | .ok (.value x) => [outLine (String.ofList x.numeral ++ "\t[0 ms]")]
    | .ok .assignment => []
    | .error failure => showFailure promptText text failure

/-- Go on with the text of a line: wait for more of it, or evaluate it. -/
def advance (prompt : Prompt) (text : List Char) : Prompt × List Output :=
  if text.getLast? = some '\\' then ({ prompt with pending := some text.dropLast }, [])
  else
    let e := evaluateLine prompt.precision prompt.memory text
    ({ prompt with memory := e.memory, pending := none },
      showEvaluation prompt.verbosity text e)

/-- Take a physical line. There is no next prompt after a command to leave. -/
def feed (prompt : Prompt) (line : List Char) : Option Prompt × List Output :=
  match prompt.pending with
  | some typed =>
    let (next, outputs) := prompt.advance (typed ++ line)
    (some next, outputs)
  | none =>
    let text := Text.trim line
    match Command.ofLine? text with
    | some .leave => (none, [])
    | some .help => (some prompt, [.out helpText])
    | some .vars =>
      (some prompt, prompt.memory.assigned.map fun (letter, x) ↦
        outLine (String.ofList (letter.toChar :: " = ".toList ++ x.numeral)))
    | some .clear => (some { prompt with memory := Memory.empty }, [])
    | none =>
      let (next, outputs) := prompt.advance text
      (some next, outputs)

/-- What is written when the input ends. -/
def farewell : List Output := [outLine ""]

/-- Take all lines up to a command to leave or to the end. -/
def feedAll (prompt : Prompt) : List (List Char) → List Output
  | [] => prompt.invitation ++ farewell
  | line :: rest =>
    prompt.invitation ++
      match prompt.feed line with
      | (none, outputs) => outputs
      | (some next, outputs) => outputs ++ next.feedAll rest

end Prompt

end FuzzyCalc.Console
