import FuzzyCalc.Proofs.Evaluation
import FuzzyCalc.Proofs.OperatorValues

/-!
# Numbers of the same value

Trailing zeros are part of a number, but no operator other than the power sees them. So if the
variables hold numbers of the same values, in whatever form, then a line is evaluated in the same
way: token by token the stacks hold numbers of the same values, and what fails fails at the same
place for a cause of the same kind.
-/

namespace FuzzyCalc

open Stack

/-- Two finite numbers of one value. -/
def Decimal.SameValue (x y : Decimal) : Prop := ∃ r : ℚ, x.HasValue r ∧ y.HasValue r

/-- Two causes of one kind. -/
def Cause.SameKind (cause other : Cause) : Prop := cause.kind = other.kind

/-- Two tokens that are treated alike: numbers of one value, or one symbol that is not the power. -/
inductive Token.Alike : Token → Token → Prop
  /-- Numbers of one value. -/
  | number {x y : Decimal} (h : x.SameValue y) : Alike (.number x) (.number y)
  /-- One symbol. -/
  | symbol {s : Symbol} (h : s ≠ .binaryOp .power) : Alike (.symbol s) (.symbol s)

/-- Two stacks that are treated alike. -/
abbrev Stack.SameValues (stack other : Stack) : Prop := List.Forall₂ Token.Alike stack other

/-- Two refusals of one kind. -/
inductive Refusal.Same : Refusal → Refusal → Prop
  /-- Causes of one kind. -/
  | fault {cause other : Cause} (h : cause.SameKind other) : Same (.fault cause) (.fault other)
  /-- An operand is missing in both. -/
  | breach (rest others : Stack) : Same (.breach rest) (.breach others)

/-- Two failures at one place, for causes of one kind. -/
inductive Failure.Same : Failure → Failure → Prop
  /-- Complaints. -/
  | complaint {c d : Complaint} (offset : c.offset = d.offset) (kind : c.cause.SameKind d.cause) :
    Same (.complaint c) (.complaint d)
  /-- An operand is missing in both. -/
  | breach : Same .breach .breach

/-- The same variables have values, and these are finite numbers that agree. -/
def Memory.SameValues (m n : Memory) : Prop :=
  ∀ letter, Option.Rel Decimal.SameValue (m.value? letter) (n.value? letter)

section

variable {p : Precision} {x y x' y' : Decimal}

/-! ### Operators -/

/-- What agrees with one outcome on values is treated alike. -/
theorem sameValue_of_agree {a b : Except Cause Decimal} {v : Except (Option Condition) ℚ}
    (ha : Agree Cause.Names Decimal.HasValue a v) (hb : Agree Cause.Names Decimal.HasValue b v) :
    Agree Refusal.Same Decimal.SameValue (refusing a) (refusing b) := by
  refine ((ha.join hb).mono (F := Cause.SameKind) ?_ fun _ _ same ↦ same).mapError
    fun _ _ ↦ Refusal.Same.fault
  rintro cause other ⟨-, ⟨kind, -⟩, otherKind, -⟩
  exact kind.trans otherKind.symm

/-- A prefix operator treats numbers of one value alike. -/
theorem PrefixOp.sameValue_apply (op : PrefixOp) (h : x.SameValue y) :
    Agree Refusal.Same Decimal.SameValue (refusing (op.apply p x)) (refusing (op.apply p y)) := by
  obtain ⟨r, hx, hy⟩ := h
  exact sameValue_of_agree (op.agree_onValue hx) (op.agree_onValue hy)

/-- A postfix operator treats numbers of one value alike. -/
theorem PostfixOp.sameValue_apply (op : PostfixOp) (h : x.SameValue y) :
    Agree Refusal.Same Decimal.SameValue (refusing (op.apply p x)) (refusing (op.apply p y)) := by
  obtain ⟨r, hx, hy⟩ := h
  exact sameValue_of_agree (op.agree_onValue hx) (op.agree_onValue hy)

/-- A binary operator other than the power treats numbers of one value alike. -/
theorem BinaryOp.sameValue_apply {op : BinaryOp} (hop : op ≠ .power) (h : x.SameValue y)
    (h' : x'.SameValue y') :
    Agree Refusal.Same Decimal.SameValue (refusing (op.apply p x x')) (refusing (op.apply p y y'))
    := by
  obtain ⟨r, hx, hy⟩ := h
  obtain ⟨s, hx', hy'⟩ := h'
  exact sameValue_of_agree (op.agree_onValues hop hx hx') (op.agree_onValues hop hy hy')

/-! ### Stacks -/

namespace Stack

variable {stack other : Stack} {token t : Token}

/-- Refusals for causes of one kind are the same. -/
theorem refused_alike {cause cause' : Cause} (h : cause.kind = cause'.kind) :
    Agree Refusal.Same SameValues (.error (.fault cause)) (.error (.fault cause')) :=
  .error (.fault h)

/-- Numbers of one value go down alike. -/
theorem sameValues_settle (hs : SameValues stack other) (hx : x.SameValue y) :
    Agree Refusal.Same SameValues (settle p stack x) (settle p other y) := by
  induction hlength : stack.length using Nat.strongRecOn generalizing stack other x y with
  | ind n ih =>
    cases hs with
    | nil => exact .ok (.cons (.number hx) .nil)
    | cons top below =>
      cases top with
      | number _ => exact refused_alike rfl
      | @symbol s hs =>
        match s with
        | .separator .opening => exact .ok (.cons (.number hx) (.cons (.symbol hs) below))
        | .separator .closing => exact refused_alike rfl
        | .postfixOp op => exact refused_alike rfl
        | .prefixOp op =>
          rw [settle_prefixOp, settle_prefixOp]
          refine (op.sameValue_apply hx).bind fun z w hz ↦ ih _ ?_ below hz rfl
          rw [← hlength]
          exact Nat.lt_succ_self _
        | .binaryOp op =>
          have hop : op ≠ .power := fun heq ↦ hs (congrArg Symbol.binaryOp heq)
          cases below with
          | nil => exact .error (.breach _ _)
          | cons left base =>
            cases left with
            | symbol _ => exact .error (.breach _ _)
            | number hleft =>
              rw [settle_binaryOp, settle_binaryOp]
              refine (BinaryOp.sameValue_apply hop hleft hx).bind fun z w hz ↦ ih _ ?_ base hz rfl
              rw [← hlength]
              exact Nat.lt_succ_of_lt (Nat.lt_succ_self _)

/-- What begins an operand is put on stacks alike. -/
theorem sameValues_awaitOperand (hs : SameValues stack other) {s : Symbol}
    (h : s ≠ .binaryOp .power) :
    Agree Refusal.Same SameValues (awaitOperand stack s) (awaitOperand other s) := by
  cases hs with
  | nil => exact .ok (.cons (.symbol h) .nil)
  | cons top below =>
    cases top with
    | number _ => exact refused_alike rfl
    | @symbol prior hprior =>
      match prior with
      | .separator .opening | .prefixOp _ | .binaryOp _ =>
        exact .ok (.cons (.symbol h) (.cons (.symbol hprior) below))
      | .separator .closing | .postfixOp _ => exact refused_alike rfl

/-- A token is pushed alike onto stacks that are treated alike. -/
theorem sameValues_push (hs : SameValues stack other) (ht : token.Alike t) :
    Agree Refusal.Same SameValues (push p stack token) (push p other t) := by
  cases ht with
  | number hx => exact sameValues_settle hs hx
  | @symbol s h =>
    match s with
    | .separator .opening | .prefixOp _ => exact sameValues_awaitOperand hs h
    | .binaryOp op =>
      cases hs with
      | nil => exact refused_alike rfl
      | cons top below =>
        cases top with
        | number hx => exact .ok (.cons (.symbol h) (.cons (.number hx) below))
        | symbol _ => exact refused_alike rfl
    | .postfixOp op =>
      cases hs with
      | nil => exact refused_alike rfl
      | cons top below =>
        cases top with
        | number hx =>
          rw [push_postfixOp, push_postfixOp]
          exact (op.sameValue_apply hx).bind fun z w hz ↦ sameValues_settle below hz
        | symbol _ => exact refused_alike rfl
    | .separator .closing =>
      cases hs with
      | nil => exact refused_alike rfl
      | cons top below =>
        cases top with
        | symbol _ => exact refused_alike rfl
        | number hx =>
          cases below with
          | nil => exact refused_alike rfl
          | cons prior base =>
            cases prior with
            | number _ => exact refused_alike rfl
            | @symbol prior hprior =>
              match prior with
              | .separator .opening => exact sameValues_settle base hx
              | .separator .closing | .prefixOp _ | .postfixOp _ | .binaryOp _ =>
                exact refused_alike rfl

end Stack

/-! ### Readings -/

/-- Two lists of tokens that are treated alike, at the same offsets. -/
abbrev SameTokens (tokens others : List (Nat × Token)) : Prop :=
  List.Forall₂ (fun t t' ↦ t.1 = t'.1 ∧ t.2.Alike t'.2) tokens others

/-- Two findings of the scanner at one place, for causes of one kind, or none. -/
abbrev SameFinding (finding other : Option (Nat × Cause)) : Prop :=
  Option.Rel (fun f f' ↦ f.1 = f'.1 ∧ f.2.SameKind f'.2) finding other

variable {m n : Memory}

/-- Tokens that are treated alike are pushed alike. -/
theorem Stack.sameValues_pushAll {stack other : Stack} {tokens others : List (Nat × Token)}
    (hs : SameValues stack other) (ht : SameTokens tokens others) :
    Agree Failure.Same SameValues (pushAll p stack tokens).result (pushAll p other others).result :=
  by
  induction ht generalizing stack other with
  | nil => exact .ok hs
  | @cons entry entry' rest rest' hentry _ ih =>
    obtain ⟨offset, token⟩ := entry
    obtain ⟨offset', token'⟩ := entry'
    obtain ⟨rfl, htoken⟩ : offset = offset' ∧ token.Alike token' := hentry
    have pushed := sameValues_push (p := p) hs htoken
    rw [pushAll, pushAll]
    generalize push p stack token = a at pushed
    generalize push p other token' = b at pushed
    cases pushed with
    | ok next => exact ih next
    | error refused =>
      cases refused with
      | fault kind => exact .error (.complaint rfl kind)
      | breach rest others => exact .error .breach

/-- A finite number has its own value. -/
theorem Decimal.sameValue_finite (x : FiniteDecimal) : SameValue (.finite x) (.finite x) :=
  ⟨x.toRat, ⟨x, rfl, rfl⟩, ⟨x, rfl, rfl⟩⟩

/-- A lexeme is read alike if the variables agree. -/
theorem Lexeme.sameValue_toToken (hm : m.SameValues n) {lexeme : Lexeme}
    (h : lexeme ≠ .symbol (.binaryOp .power)) :
    Agree Cause.SameKind Token.Alike (lexeme.toToken m) (lexeme.toToken n) := by
  cases lexeme with
  | numeral text =>
    rw [toToken, toToken]
    cases FiniteDecimal.ofPlainNumeral? text with
    | none => exact .error rfl
    | some x => exact .ok (.number (Decimal.sameValue_finite x))
  | letter l =>
    have value := hm l
    rw [toToken, toToken, Memory.read, Memory.read]
    generalize m.value? l = a at value
    generalize n.value? l = b at value
    cases value with
    | none => exact .error rfl
    | some same => exact .ok (.number same)
  | symbol s => exact .ok (.symbol fun heq ↦ h (congrArg Lexeme.symbol heq))
  | stray c next =>
    rw [toToken, toToken]
    split
    · exact .error rfl
    · exact .error rfl

/-- Lexemes are read alike if the variables agree. -/
theorem Reading.sameValues_ofLexemes (hm : m.SameValues n) {lexemes : List Lexeme} (offset : Nat)
    (h : ∀ x ∈ lexemes, x ≠ .symbol (.binaryOp .power)) :
    SameTokens (ofLexemes m offset lexemes).tokens (ofLexemes n offset lexemes).tokens ∧
      SameFinding (ofLexemes m offset lexemes).failure (ofLexemes n offset lexemes).failure := by
  induction lexemes generalizing offset with
  | nil => exact ⟨.nil, .none⟩
  | cons x rest ih =>
    obtain ⟨hx, hrest⟩ := List.forall_mem_cons.mp h
    have first := x.sameValue_toToken hm hx
    rw [ofLexemes, ofLexemes]
    generalize x.toToken m = a at first
    generalize x.toToken n = b at first
    cases first with
    | error kind => exact ⟨.nil, .some ⟨rfl, kind⟩⟩
    | ok same =>
      obtain ⟨tokens, finding⟩ := ih (offset + x.length) hrest
      exact ⟨.cons ⟨rfl, same⟩ tokens, finding⟩

/-- Stacks that are treated alike come down to numbers of one value, or neither to a number. -/
theorem sameValue_concludeExpression {finding other : Option (Nat × Cause)} {stack others : Stack}
    (hf : SameFinding finding other) (hs : SameValues stack others) :
    Agree Failure.Same Decimal.SameValue (concludeExpression finding stack)
      (concludeExpression other others) := by
  cases hf with
  | some same => exact .error (.complaint (congrArg some same.1) same.2)
  | none =>
    cases hs with
    | nil => exact .error (Failure.Same.complaint rfl rfl)
    | cons top below =>
      cases top with
      | symbol _ =>
        cases below with
        | nil => exact .error (Failure.Same.complaint rfl rfl)
        | cons _ _ => exact .error (Failure.Same.complaint rfl rfl)
      | number same =>
        cases below with
        | nil => exact .ok same
        | cons _ _ => exact .error (Failure.Same.complaint rfl rfl)

/-- Without the character of the power the power is not among the lexemes. -/
theorem Lexeme.ne_power_of_mem {text : List Char} (h : '^' ∉ text) :
    ∀ x ∈ split text, x ≠ .symbol (.binaryOp .power) := by
  rintro x hx rfl
  exact h (mem_of_mem_split hx (List.mem_singleton_self _))

/-- An expression without powers is evaluated alike if the variables agree. -/
theorem sameValue_evaluateExpression (hm : m.SameValues n) {text : List Char} (start : Nat)
    (h : '^' ∉ text) :
    Agree Failure.Same Decimal.SameValue (evaluateExpression p m text start).result
      (evaluateExpression p n text start).result := by
  have fewer : '^' ∉ text.drop start := fun hmem ↦ h (List.mem_of_mem_drop hmem)
  obtain ⟨tokens, finding⟩ := Reading.sameValues_ofLexemes hm start (Lexeme.ne_power_of_mem fewer)
  rw [evaluateExpression_result, evaluateExpression_result]
  exact (sameValues_pushAll .nil tokens).bind fun _ _ same ↦
    sameValue_concludeExpression finding same

end

/-! ### Lines -/

namespace Memory

variable {m n : Memory} {x y : Decimal}

/-- Without values variables agree. -/
theorem sameValues_empty : empty.SameValues empty := by
  intro letter
  rw [value?_empty]
  exact .none

/-- Variables agree after numbers of one value have been put into the same slot. -/
theorem SameValues.put (hm : m.SameValues n) (letter : Letter) (h : x.SameValue y) :
    (m.put letter x).SameValues (n.put letter y) := by
  intro other
  obtain ⟨r, hx, hy⟩ := h
  rw [value?_put, value?_put]
  by_cases heq : letter = other
  · rw [if_pos heq, if_pos heq, hx.isBelowZero, hy.isBelowZero]
    split
    · exact .none
    · exact .some ⟨r, hx, hy⟩
  · rw [if_neg heq, if_neg heq]
    exact hm other

end Memory

/-- The form in which numbers are written is not seen. In a line without powers, let the variables
hold numbers of the same values in two memories. Then the line has values that are equal as rational
numbers, or both times it assigns such values to one variable, or both times something is wrong, at
the same offset and for a cause of the same kind. Afterwards the variables still agree. -/
theorem evaluateLine_sameValues (p : Precision) (m n : Memory) (text : List Char)
    (hm : m.SameValues n) (ht : '^' ∉ text) :
    ((∃ x y, (evaluateLine p m text).result = .ok (.value x) ∧
        (evaluateLine p n text).result = .ok (.value y) ∧ x.SameValue y) ∨
      (∃ letter x y, (evaluateLine p m text).result = .ok .assignment ∧
        (evaluateLine p n text).result = .ok .assignment ∧ x.SameValue y ∧
        (evaluateLine p m text).memory = m.put letter x ∧
        (evaluateLine p n text).memory = n.put letter y) ∨
      ∃ c d, (evaluateLine p m text).result = .error (.complaint c) ∧
        (evaluateLine p n text).result = .error (.complaint d) ∧
        c.offset = d.offset ∧ c.cause.SameKind d.cause) ∧
    (evaluateLine p m text).memory.SameValues (evaluateLine p n text).memory := by
  have expression (start : Nat) :
      (∃ x y, (evaluateExpression p m text start).result = .ok x ∧
        (evaluateExpression p n text start).result = .ok y ∧ x.SameValue y) ∨
      ∃ c d, (evaluateExpression p m text start).result = .error (.complaint c) ∧
        (evaluateExpression p n text start).result = .error (.complaint d) ∧
        c.offset = d.offset ∧ c.cause.SameKind d.cause := by
    rcases (sameValue_evaluateExpression (p := p) hm start ht).ok_or_error with
      ⟨x, y, hx, hy, same⟩ | ⟨e, e', hx, hy, same⟩
    · exact .inl ⟨x, y, hx, hy, same⟩
    · cases same with
      | complaint offset kind => exact .inr ⟨_, _, hx, hy, offset, kind⟩
      | breach => exact absurd hx evaluateExpression_ne_breach
  rcases line_cases text with ⟨c, rest, rfl, hc⟩ | ⟨c, rest, letter, rfl, hc⟩ | plain
  · rw [evaluateLine_badName hc, evaluateLine_badName hc]
    exact ⟨.inr (.inr ⟨_, _, rfl, rfl, rfl, rfl⟩), hm⟩
  · rcases expression 2 with ⟨x, y, hx, hy, same⟩ | ⟨e, e', hx, hy, offset, kind⟩
    · rw [evaluateLine_assignment hc hx, evaluateLine_assignment hc hy]
      exact ⟨.inr (.inl ⟨letter, x, y, rfl, rfl, same, rfl, rfl⟩), hm.put letter same⟩
    · rw [evaluateLine_failure hc hx, evaluateLine_failure hc hy]
      exact ⟨.inr (.inr ⟨e, e', rfl, rfl, offset, kind⟩), hm⟩
  · rw [evaluateLine_expression plain, evaluateLine_expression plain]
    refine ⟨?_, hm⟩
    rcases expression 0 with ⟨x, y, hx, hy, same⟩ | ⟨e, e', hx, hy, offset, kind⟩
    · rw [hx, hy]
      exact .inl ⟨x, y, rfl, rfl, same⟩
    · rw [hx, hy]
      exact .inr (.inr ⟨e, e', rfl, rfl, offset, kind⟩)

/-- With 0.6 and 1E+3 in one memory and 0.60 and 1000 in the other, `x*y` has two forms of the value
six hundred. -/
theorem evaluateLine_sameValues_product :
    let m := (Memory.empty.put ⟨49⟩ (.finite ⟨false, 6, -1⟩)).put ⟨50⟩ (.finite ⟨false, 1, 3⟩)
    let n := (Memory.empty.put ⟨49⟩ (.finite ⟨false, 60, -2⟩)).put ⟨50⟩ (.finite ⟨false, 1000, 0⟩)
    let text := ['x', '*', 'y']
    m.SameValues n ∧ '^' ∉ text ∧
      (evaluateLine .standard m text).result = .ok (.value (.finite ⟨false, 6, 2⟩)) ∧
      ∃ y, (evaluateLine .standard n text).result = .ok (.value y) ∧ y ≠ .finite ⟨false, 6, 2⟩ ∧
        y.HasValue 600 := by
  intro m n text
  have six : Decimal.SameValue (.finite ⟨false, 6, -1⟩) (.finite ⟨false, 60, -2⟩) :=
    ⟨6 / 10, ⟨_, rfl, by norm_num [FiniteDecimal.toRat, FiniteDecimal.signed]⟩,
      ⟨_, rfl, by norm_num [FiniteDecimal.toRat, FiniteDecimal.signed]⟩⟩
  have thousand : Decimal.SameValue (.finite ⟨false, 1, 3⟩) (.finite ⟨false, 1000, 0⟩) :=
    ⟨1000, ⟨_, rfl, by norm_num [FiniteDecimal.toRat, FiniteDecimal.signed]⟩,
      ⟨_, rfl, by norm_num [FiniteDecimal.toRat, FiniteDecimal.signed]⟩⟩
  have agree : m.SameValues n := (Memory.sameValues_empty.put ⟨49⟩ six).put ⟨50⟩ thousand
  have first : (evaluateLine .standard m text).result = .ok (.value (.finite ⟨false, 6, 2⟩)) := by
    decide +kernel
  refine ⟨agree, by decide, first, ?_⟩
  rcases (evaluateLine_sameValues .standard m n text agree (by decide)).1 with
    ⟨x, y, hx, hy, r, hxr, hyr⟩ | ⟨-, -, -, hx, -⟩ | ⟨c, d, hx, -⟩
  · cases first.symm.trans hx
    obtain ⟨f, hf, rfl⟩ := hxr
    cases hf
    have sixHundred : (FiniteDecimal.mk false 6 2).toRat = 600 := by
      norm_num [FiniteDecimal.toRat, FiniteDecimal.signed]
    rw [sixHundred] at hyr
    refine ⟨y, hy, ?_, hyr⟩
    rintro rfl
    exact absurd hy (by decide +kernel)
  · cases first.symm.trans hx
  · cases first.symm.trans hx

end FuzzyCalc
