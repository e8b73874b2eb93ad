import Mathlib.Control.Monad.Basic
import FuzzyCalc.Proofs.Evaluation

/-!
# Assignments

Where an expression begins in a line only moves its offsets. So an assignment evaluates the
expression behind the colon as if it stood alone: it stores the value, or it complains two
characters further on and stores nothing.
-/

namespace FuzzyCalc

open Stack

/-! ### Moving an expression -/

/-- The same reading of a text that begins later in a line. -/
def Reading.shift (k : Nat) (reading : Reading) : Reading :=
  ⟨reading.tokens.map fun entry ↦ (entry.1 + k, entry.2),
    reading.failure.map fun entry ↦ (entry.1 + k, entry.2)⟩

/-- The same complaint about a text that begins later in a line. -/
def Complaint.shift (k : Nat) (complaint : Complaint) : Complaint :=
  { complaint with offset := complaint.offset.map (· + k) }

/-- The same failure of a text that begins later in a line. -/
def Failure.shift (k : Nat) : Failure → Failure
  | complaint c => complaint (c.shift k)
  | breach => breach

section

variable {p : Precision} {m : Memory}

/-- Lexemes that begin later are read in the same way. -/
theorem Reading.ofLexemes_add (offset k : Nat) (lexemes : List Lexeme) :
    ofLexemes m (offset + k) lexemes = (ofLexemes m offset lexemes).shift k := by
  induction lexemes generalizing offset with
  | nil => rfl
  | cons x rest ih =>
    rw [ofLexemes, ofLexemes]
    cases x.toToken m with
    | error cause => rfl
    | ok token =>
      have later := ih (offset + x.length)
      rw [Nat.add_right_comm] at later
      simp only [later]
      rfl

/-- Scanning from an offset is scanning what is there, moved. -/
theorem Reading.scan_eq_shift (text : List Char) (start : Nat) :
    scan m text start = (scan m (text.drop start) 0).shift start := by
  rw [scan, scan, List.drop_zero, ← ofLexemes_add, Nat.zero_add]

/-- Tokens at other offsets are pushed in the same way. -/
theorem Stack.pushAll_shift (k : Nat) (stack : Stack) (tokens : List (Nat × Token)) :
    (pushAll p stack (tokens.map fun entry ↦ (entry.1 + k, entry.2))).result =
      (pushAll p stack tokens).result.mapError (Failure.shift k) := by
  induction tokens generalizing stack with
  | nil => rfl
  | cons head rest ih =>
    obtain ⟨offset, token⟩ := head
    rw [List.map_cons, pushAll, pushAll]
    cases push p stack token with
    | ok next => exact ih next
    | error refusal =>
      cases refusal with
      | fault cause => rfl
      | breach below => rfl

/-- What an expression comes down to does not depend on where it begins. -/
theorem concludeExpression_shift (k : Nat) (failure : Option (Nat × Cause)) (stack : Stack) :
    concludeExpression (failure.map fun entry ↦ (entry.1 + k, entry.2)) stack =
      (concludeExpression failure stack).mapError (Failure.shift k) := by
  cases failure with
  | some entry => rfl
  | none =>
    rw [Option.map_none, concludeExpression]
    cases stack.result with
    | ok x => rfl
    | error cause => rfl

/-- Where an expression begins only moves the offset of a complaint. -/
theorem evaluateExpression_eq_shift (text : List Char) (start : Nat) :
    (evaluateExpression p m text start).result =
      (evaluateExpression p m (text.drop start) 0).result.mapError (Failure.shift start) := by
  rw [evaluateExpression_result, evaluateExpression_result, Reading.scan_eq_shift text start]
  simp only [Reading.shift, pushAll_shift]
  cases (pushAll p [] (Reading.scan m (text.drop start) 0).tokens).result with
  | error failure => rfl
  | ok stack => exact concludeExpression_shift start _ stack

/-- A failing expression is complained about. -/
theorem exists_complaint {text : List Char} {start : Nat} {failure : Failure}
    (h : (evaluateExpression p m text start).result = .error failure) :
    ∃ complaint, failure = .complaint complaint := by
  cases failure with
  | complaint complaint => exact ⟨complaint, rfl⟩
  | breach => exact absurd h evaluateExpression_ne_breach

end

/-! ### All or nothing -/

/-- A line that is no assignment changes no variable. An assignment to something else than a letter
is refused at offset 0 and changes none either. An assignment to a letter evaluates the expression
behind the colon as if it stood alone: if it has a value, the slot of the letter holds that value
afterwards and all others what they held before; if it has none, the complaint is that of the
expression alone, with the offset two further on if there is one, and no slot has changed. -/
theorem evaluateLine_stores_all_or_nothing (p : Precision) (m : Memory) (text : List Char) :
    ((∀ c expression, text ≠ c :: ':' :: expression) → (evaluateLine p m text).memory = m) ∧
    ∀ c expression, text = c :: ':' :: expression →
      (Letter.ofChar? c = none →
        (evaluateLine p m text).result =
            .error (.complaint ⟨.badName [c], none, some 0⟩) ∧
          (evaluateLine p m text).memory = m) ∧
      ∀ letter, Letter.ofChar? c = some letter →
        (∀ v, (evaluateExpression p m expression 0).result = .ok v →
          (evaluateLine p m text).result = .ok .assignment ∧
            ∀ other : Letter, (evaluateLine p m text).memory.slots.get other.index =
              if letter = other then some v else m.slots.get other.index) ∧
        ∀ failure, (evaluateExpression p m expression 0).result = .error failure →
          ∃ complaint, failure = .complaint complaint ∧
            (evaluateLine p m text).result = .error (.complaint
              ⟨complaint.cause, complaint.reached, complaint.offset.map (· + 2)⟩) ∧
            (evaluateLine p m text).memory = m := by
  refine ⟨fun h ↦ by rw [evaluateLine_expression h], ?_⟩
  rintro c expression rfl
  have moved := evaluateExpression_eq_shift (p := p) (m := m) (c :: ':' :: expression) 2
  change _ = (evaluateExpression p m expression 0).result.mapError (Failure.shift 2) at moved
  refine ⟨fun hc ↦ ?_, fun letter hc ↦ ⟨fun v hv ↦ ?_, fun failure hfailure ↦ ?_⟩⟩
  · rw [evaluateLine_badName hc]
    exact ⟨rfl, rfl⟩
  · rw [hv] at moved
    rw [evaluateLine_assignment hc moved]
    exact ⟨rfl, fun other ↦ m.slots_put letter other v⟩
  · obtain ⟨complaint, rfl⟩ := exists_complaint hfailure
    rw [hfailure] at moved
    rw [evaluateLine_failure hc moved]
    exact ⟨complaint, rfl, rfl, rfl⟩

/-- With 50 for `y`, `x:y%` stores one half, and `y:1/(y-50)` is refused at the closing parenthesis
and leaves `y` as it was. -/
theorem evaluateLine_stores_percentage :
    let m := Memory.empty.put ⟨50⟩ (.finite ⟨false, 50, 0⟩)
    let half : Decimal := .finite ⟨false, 5, -1⟩
    let stored := evaluateLine .standard m ['x', ':', 'y', '%']
    let refused := evaluateLine .standard m ['y', ':', '1', '/', '(', 'y', '-', '5', '0', ')']
    (stored.result = .ok .assignment ∧ stored.memory.slots.get 49 = some half ∧
      stored.memory.slots.get 50 = some (.finite ⟨false, 50, 0⟩)) ∧
    (∃ complaint, refused.result = .error (.complaint complaint) ∧ complaint.offset = some 9) ∧
      refused.memory = m := by
  intro m half stored refused
  have value : (evaluateExpression .standard m ['y', '%'] 0).result = .ok half :=
    evaluateExpression_result_eq_ok.mpr (by decide +kernel)
  have failed : (evaluateExpression .standard m ['1', '/', '(', 'y', '-', '5', '0', ')'] 0).result =
      .error (.complaint ⟨.nonpositiveDivisor .zero,
        some [.number .one, .symbol (.binaryOp .quotient), .opening, .number .zero], some 7⟩) := by
    decide +kernel
  obtain ⟨assigned, slots⟩ := ((evaluateLine_stores_all_or_nothing .standard m _).2 'x' _ rfl).2
    ⟨49⟩ rfl |>.1 half value
  obtain ⟨complaint, heq, complained, kept⟩ :=
    ((evaluateLine_stores_all_or_nothing .standard m _).2 'y' _ rfl).2 ⟨50⟩ rfl |>.2 _ failed
  cases heq
  exact ⟨⟨assigned, slots ⟨49⟩, slots ⟨50⟩⟩, ⟨_, complained, rfl⟩, kept⟩

end FuzzyCalc
