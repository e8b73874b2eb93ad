import FuzzyCalc.Console.Output

/-!
# Evaluating the lines of the command line

The lines are evaluated one after another on the same variables. Values are written one a line. The
status tells whether every line went well.
-/

namespace FuzzyCalc.Console

/-- What is written for an evaluated line. -/
def showOneShot (verbosity : Nat) (text : List Char) (e : Evaluation) : List Output :=
  showTrace verbosity e.trace ++
    match e.result with
    | .ok (.value x) => [outLine (String.ofList x.numeral)]
    | .ok .assignment => []
    | .error failure => showFailure [] text failure

/-- Evaluate lines: what is written, and whether one of them failed. -/
def evaluateLines (p : Precision) (verbosity : Nat) (m : Memory) :
    List (List Char) → List Output × Bool
  | [] => ([], false)
  | text :: rest =>
    let e := evaluateLine p m text
    let (outputs, failed) := evaluateLines p verbosity e.memory rest
    (showOneShot verbosity text e ++ outputs, !e.result.isOk || failed)

end FuzzyCalc.Console
