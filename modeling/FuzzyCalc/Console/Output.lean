import FuzzyCalc.Console.Picture
import FuzzyCalc.InternalFault
import FuzzyCalc.Line

/-!
# What the console writes

Results go to one channel, complaints and traces to another. A complaint with a place shows a
picture of the line above its message.
-/

namespace FuzzyCalc.Console

/-- A piece of output. -/
inductive Output where
  /-- Text for results. -/
  | out (text : String)
  /-- Text for complaints and traces. -/
  | err (text : String)
  deriving DecidableEq, Repr, Inhabited

namespace Output

/-- All text for results. -/
def results (outputs : List Output) : String :=
  String.join (outputs.map fun | out text => text | err _ => "")

/-- All text for complaints and traces. -/
def complaints (outputs : List Output) : String :=
  String.join (outputs.map fun | out _ => "" | err text => text)

end Output

/-- A line of results. -/
def outLine (text : String) : Output := .out (text ++ "\n")

/-- A line of complaints or traces. -/
def errLine (text : String) : Output := .err (text ++ "\n")

/-- The lines of a trace, if tracing was asked for. -/
def showTrace (verbosity : Nat) (trace : List TraceEntry) : List Output :=
  if verbosity = 0 then [] else trace.map fun entry ↦ errLine entry.line

/-- A complaint about a line that has a lead in front. -/
def showComplaint (lead text : List Char) (complaint : Complaint) : List Output :=
  match complaint.offset with
  | some offset =>
    [errLine (String.ofList (picture lead text offset)), errLine complaint.message]
  | none => [errLine complaint.message]

/-- Why there is no value, for a line that has a lead in front. -/
def showFailure (lead text : List Char) : Failure → List Output
  | .complaint complaint => showComplaint lead text complaint
  | .breach => [errLine InternalFault.missingOperand.message]

end FuzzyCalc.Console
