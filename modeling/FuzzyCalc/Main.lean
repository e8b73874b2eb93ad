import FuzzyCalc.Console.Program

/-!
# Running the program

The only part that reads and writes: it carries out the plan that the arguments give, and feeds the
prompt one line at a time.
-/

namespace FuzzyCalc.Console

/-- Write pieces of output to their channels. -/
def writeOutputs (outputs : List Output) : IO Unit :=
  outputs.forM fun
    | .out text => do
      (← IO.getStdout).putStr text
      (← IO.getStdout).flush
    | .err text => do
      (← IO.getStderr).putStr text
      (← IO.getStderr).flush

/-- Feed the prompt until it is left or the input ends. -/
partial def interact (prompt : Prompt) : IO Unit := do
  writeOutputs prompt.invitation
  let line ← (← IO.getStdin).getLine
  if line.isEmpty then writeOutputs Prompt.farewell
  else
    let chars := line.toList
    let chars := if chars.getLast? = some '\n' then chars.dropLast else chars
    let (next, outputs) := prompt.feed chars
    writeOutputs outputs
    match next with
    | none => pure ()
    | some prompt => interact prompt

end FuzzyCalc.Console

/-- Run the program. -/
def main (arguments : List String) : IO UInt32 := do
  match FuzzyCalc.Console.plan (arguments.map String.toList) with
  | .finish status outputs =>
    FuzzyCalc.Console.writeOutputs outputs
    return status.toUInt32
  | .interact prompt =>
    FuzzyCalc.Console.writeOutputs [FuzzyCalc.Console.outLine FuzzyCalc.Console.greeting]
    FuzzyCalc.Console.interact prompt
    return 0
