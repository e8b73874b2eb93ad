import FuzzyCalc.Line

/-!
# Sessions

A session evaluates lines one after another on the same variables. Between the lines the variables
can be listed, read, written and cleared, and the precision can change. Failed steps change nothing
but the lines they have traced, and lines are traced only on request.
-/

namespace FuzzyCalc

/-- What a session is asked to do. -/
inductive Request where
  /-- Evaluate a line and report what is wrong with it. -/
  | evaluate (text : List Char)
  /-- Evaluate a line and fail if something is wrong with it. -/
  | parse (text : List Char)
  /-- Use another precision from now on. -/
  | setPrecision (digits : Int)
  /-- List the variables that have a value. -/
  | vars
  /-- Forget all values. -/
  | clear
  /-- Read the variable of a name. -/
  | get (name : List Char)
  /-- Give a number to the variable of a name. -/
  | set (name : List Char) (x : Decimal)
  /-- The number of the letter that a name is. -/
  | index (name : List Char)
  /-- The letter of a number. -/
  | letter (n : Int)
  deriving DecidableEq, Repr, Inhabited

/-- What a session answers. -/
inductive Answer where
  /-- The outcome of an evaluated line. -/
  | outcome (result : Except Failure Yield)
  /-- The outcome of a parsed line. -/
  | parsed (result : Except Failure Yield)
  /-- The request is done. -/
  | done
  /-- There is no such precision. -/
  | badPrecision (digits : Int)
  /-- The variables that have a value. -/
  | listing (vars : List (Letter × Decimal))
  /-- The value of a variable, or why there is none. -/
  | read (result : Except Cause Decimal)
  /-- There is no such variable to write to. -/
  | noSuchVariable (name : List Char)
  /-- The number of a letter. -/
  | position (n : Int)
  /-- The code point of a letter. -/
  | codePoint (n : Nat)
  /-- There is no code point of this number. -/
  | noCodePoint

/-- The message for a number that is no code point. -/
def noCodePointMessage : String := "chr() arg not in range(0x110000)"

/-- A session: the variables, the precision, and whether lines are traced. -/
structure Session where
  /-- The variables. -/
  memory : Memory
  /-- The precision of the arithmetic. -/
  precision : Precision
  /-- Lines are traced unless this is zero. -/
  verbosity : Nat
  deriving Repr

namespace Session

/-- A session without any values. -/
def fresh (p : Precision) (verbosity : Nat) : Session := ⟨Memory.empty, p, verbosity⟩

/-- The part of a trace that is reported. -/
def report (s : Session) (trace : List TraceEntry) : List TraceEntry :=
  if s.verbosity = 0 then [] else trace

/-- Answer a request: the session afterwards, the answer, and what has been traced. -/
def step (s : Session) : Request → Session × Answer × List TraceEntry
  | .evaluate text =>
    let e := evaluateLine s.precision s.memory text
    ({ s with memory := e.memory }, .outcome e.result, s.report e.trace)
  | .parse text =>
    let e := evaluateLine s.precision s.memory text
    ({ s with memory := e.memory }, .parsed e.result, s.report e.trace)
  | .setPrecision digits =>
    match Precision.ofInt? digits with
    | some p => ({ s with precision := p }, .done, [])
    | none => (s, .badPrecision digits, [])
  | .vars => (s, .listing s.memory.assigned, [])
  | .clear => ({ s with memory := Memory.empty }, .done, [])
  | .get name => (s, .read (s.memory.readName name), [])
  | .set name x =>
    match s.memory.putName? name x with
    | some memory => ({ s with memory := memory }, .done, [])
    | none => (s, .noSuchVariable name, [])
  | .index name => (s, .position (Letter.indexOf name), [])
  | .letter n =>
    match Letter.codePoint? n with
    | some code => (s, .codePoint code, [])
    | none => (s, .noCodePoint, [])

/-- Answer requests one after another: the session at the end, and the answers. -/
def run (s : Session) : List Request → Session × List (Answer × List TraceEntry)
  | [] => (s, [])
  | request :: rest =>
    let (next, answer) := s.step request
    let (final, answers) := next.run rest
    (final, answer :: answers)

end Session

end FuzzyCalc
