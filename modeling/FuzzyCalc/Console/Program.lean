import FuzzyCalc.Console.Arguments
import FuzzyCalc.Console.OneShot
import FuzzyCalc.Console.Prompt

/-!
# The program

The arguments decide what is done: show the help, evaluate the lines given with them, or start the
prompt. Wrong arguments are answered with the usage and the reason.
-/

namespace FuzzyCalc.Console

/-- How the program is called. -/
def usage : String := "usage: peach [-h] [-e EXPR] [-v] [--precision PRECISION]\n"

/-- The description of the program and its options. -/
def optionsHelp : String :=
  usage ++
  "\n" ++
  "Interpreter for the Peach fuzzy-logic language.\n" ++
  "\n" ++
  "options:\n" ++
  "  -h, --help            show this help message and exit\n" ++
  "  -e EXPR, --evaluate EXPR\n" ++
  "                        Evaluate this line (may be repeated) instead of\n" ++
  "                        starting the prompt.\n" ++
  "  -v, --verbose         Trace each token and what the expression reduces to.\n" ++
  "  --precision PRECISION\n" ++
  "                        Significant digits of decimal arithmetic (default 28).\n"

/-- What is to be done, once the arguments are understood. -/
inductive Plan where
  /-- Write something and leave with a status. -/
  | finish (status : Nat) (outputs : List Output)
  /-- Start the prompt. -/
  | interact (prompt : Prompt)

/-- The answer to wrong arguments. -/
def refuse (error : UsageError) : Plan :=
  .finish 2 [.err usage, errLine ("peach: error: " ++ error.message)]

/-- Decide what the arguments ask for, and do all that needs no input. -/
def plan (arguments : List (List Char)) : Plan :=
  match parseArguments arguments with
  | .error error => refuse error
  | .ok .showHelp => .finish 0 [.out optionsHelp]
  | .ok (.run settings) =>
    match Precision.ofInt? settings.precision with
    | none =>
      if settings.precision < 1 then refuse .noPrecision
      else .finish 1 [errLine (Precision.refusal settings.precision)]
    | some p =>
      if settings.lines.isEmpty then .interact (.start p settings.verbosity)
      else
        let (outputs, failed) := evaluateLines p settings.verbosity Memory.empty settings.lines
        .finish (if failed then 1 else 0) outputs

/-- Split an input into its lines. A last line needs no line break. -/
def splitLines (input : List Char) : List (List Char) :=
  match input with
  | [] => []
  | c :: rest =>
    if c = '\n' then [] :: splitLines rest
    else match splitLines rest with
      | [] => [[c]]
      | line :: lines => (c :: line) :: lines

/-- Run the program on arguments and lines of input: the exit status and what is written. -/
def run (arguments : List (List Char)) (lines : List (List Char)) : Nat × List Output :=
  match plan arguments with
  | .finish status outputs => (status, outputs)
  | .interact prompt => (0, outLine greeting :: prompt.feedAll lines)

end FuzzyCalc.Console
