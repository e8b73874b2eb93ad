import FuzzyCalc.Operator
import FuzzyCalc.Stack

/-!
# Chains of steps that can fail

A chain of steps succeeds exactly if every step does, and otherwise ends as its first failing step.
The operators and the stack are such chains; a stack refuses with the cause of the operator.
-/

namespace FuzzyCalc

section

variable {ε ε' α β : Type}

/-- A chain succeeds exactly if both of its steps do. -/
theorem bind_eq_ok {a : Except ε α} {f : α → Except ε β} {y : β} :
    a >>= f = .ok y ↔ ∃ x, a = .ok x ∧ f x = .ok y := by
  cases a with
  | error e => simp [bind, Except.bind]
  | ok x => simp [bind, Except.bind]

/-- A chain fails if its first step does, or else its second. -/
theorem bind_eq_error {a : Except ε α} {f : α → Except ε β} {e : ε} :
    a >>= f = .error e ↔ a = .error e ∨ ∃ x, a = .ok x ∧ f x = .error e := by
  cases a with
  | error e => simp [bind, Except.bind]
  | ok x => simp [bind, Except.bind]

/-- Changing the result does not change whether there is one. -/
theorem map_eq_ok {a : Except ε α} {f : α → β} {y : β} :
    f <$> a = .ok y ↔ ∃ x, a = .ok x ∧ f x = y := by
  cases a with
  | error e => simp [Functor.map, Except.map]
  | ok x => simp [Functor.map, Except.map]

/-- Changing the failure does not change a success. -/
theorem mapError_eq_ok {a : Except ε α} {f : ε → ε'} {x : α} :
    a.mapError f = .ok x ↔ a = .ok x := by
  cases a with
  | error e => exact ⟨nofun, nofun⟩
  | ok y =>
    constructor
    · rintro ⟨⟩
      rfl
    · rintro ⟨⟩
      rfl

/-- A changed failure comes from a failure. -/
theorem mapError_eq_error {a : Except ε α} {f : ε → ε'} {e' : ε'} :
    a.mapError f = .error e' ↔ ∃ e, a = .error e ∧ f e = e' := by
  cases a with
  | error e =>
    constructor
    · rintro ⟨⟩
      exact ⟨e, rfl, rfl⟩
    · rintro ⟨_, ⟨⟩, rfl⟩
      rfl
  | ok x => exact ⟨nofun, fun ⟨_, h, _⟩ ↦ nomatch h⟩

/-- An outcome is a success exactly if it is one as an option. -/
theorem toOption_eq_some {a : Except ε α} {x : α} : a.toOption = some x ↔ a = .ok x := by
  cases a with
  | error e => simp [Except.toOption]
  | ok y => simp [Except.toOption]

/-- A chain succeeds as its two steps do. -/
theorem toOption_bind (a : Except ε α) (f : α → Except ε β) :
    (a >>= f).toOption = a.toOption.bind fun x ↦ (f x).toOption := by
  cases a with
  | error e => rfl
  | ok x => rfl

end

/-- The arithmetic gives an answer exactly if the attempt does. -/
theorem attempt_eq_ok {α : Type} {operation : List Token} {answer : Except Condition α} {x : α} :
    attempt operation answer = .ok x ↔ answer = .ok x := mapError_eq_ok

/-- An attempt fails only because the arithmetic refuses. -/
theorem attempt_eq_error {α : Type} {operation : List Token} {answer : Except Condition α}
    {cause : Cause} (h : attempt operation answer = .error cause) :
    ∃ condition, cause = .outOfRange operation condition := by
  obtain ⟨condition, -, rfl⟩ := mapError_eq_error.mp h
  exact ⟨condition, rfl⟩

private theorem kind_of_attempt {α : Type} {operation : List Token} {answer : Except Condition α}
    {cause : Cause} (h : attempt operation answer = .error cause) : cause.kind = .domain := by
  obtain ⟨condition, rfl⟩ := attempt_eq_error h
  rfl

/-- A prefix operator fails only because of its operand. -/
theorem PrefixOp.kind_of_apply {p : Precision} {op : PrefixOp} {x : Decimal} {cause : Cause}
    (h : op.apply p x = .error cause) : cause.kind = .domain := by
  cases op with
  | complement =>
    rcases bind_eq_error.mp h with h | ⟨o, -, h⟩
    · exact kind_of_attempt h
    · split at h
      · cases h
        rfl
      · exact kind_of_attempt h
  | possible => exact kind_of_attempt h
  | certain => exact kind_of_attempt h

/-- A postfix operator fails only because of its operand. -/
theorem PostfixOp.kind_of_apply {p : Precision} {op : PostfixOp} {x : Decimal} {cause : Cause}
    (h : op.apply p x = .error cause) : cause.kind = .domain := by
  cases op with
  | percent => exact kind_of_attempt h

/-- A binary operator fails only because of its operands. -/
theorem BinaryOp.kind_of_apply {p : Precision} {op : BinaryOp} {x y : Decimal} {cause : Cause}
    (h : op.apply p x y = .error cause) : cause.kind = .domain := by
  cases op with
  | quotient =>
    rcases bind_eq_error.mp h with h | ⟨atMostZero, -, h⟩
    · exact kind_of_attempt h
    · split at h
      · cases h
        rfl
      · exact kind_of_attempt h
  | power =>
    rcases bind_eq_error.mp h with h | ⟨baseAtMostZero, -, h⟩
    · exact kind_of_attempt h
    · split at h
      · rcases bind_eq_error.mp h with h | ⟨atMostZero, -, h⟩
        · exact kind_of_attempt h
        · split at h
          · cases h
            rfl
          · exact kind_of_attempt h
      · exact kind_of_attempt h
  | disjunction =>
    rcases bind_eq_error.mp h with h | ⟨result, -, h⟩
    · exact kind_of_attempt h
    · rcases bind_eq_error.mp h with h | ⟨o, -, h⟩
      · exact kind_of_attempt h
      · split at h
        · cases h
          rfl
        · cases h
  | _ => exact kind_of_attempt h

namespace Stack

/-- What an operator answers, as an answer of the stack. -/
def refusing {α : Type} (answer : Except Cause α) : Except Refusal α := answer.mapError .fault

/-- A success stays one. -/
@[simp] theorem refusing_ok {α : Type} (x : α) : refusing (.ok x) = .ok x := rfl

/-- A failure is a refusal with its cause. -/
@[simp] theorem refusing_error {α : Type} (cause : Cause) :
    refusing (.error cause : Except Cause α) = .error (.fault cause) := rfl

/-- The stack refuses a chain of operators as it refuses the first that fails. -/
theorem refusing_bind {α β : Type} (a : Except Cause α) (f : α → Except Cause β) :
    refusing (a >>= f) = refusing a >>= fun x ↦ refusing (f x) := by
  cases a with
  | error cause => rfl
  | ok x => rfl

end Stack

end FuzzyCalc
