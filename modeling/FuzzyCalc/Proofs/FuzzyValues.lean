import FuzzyCalc.Proofs.Diagnosis
import FuzzyCalc.Proofs.UnitInterval
import FuzzyCalc.Proofs.Values

/-!
# Lines on truth values

If the variables and the numerals of a line are truth values, and no operator in it leads out of
them, then whatever stands on the stack at any time is a truth value, and so is the value in the
end. An operator can then fail in one way only: its result is so close to zero that it would lose
digits.
-/

namespace FuzzyCalc

open Stack

/-- A truth value: a finite number without a minus sign, from zero to one. -/
def Decimal.Fuzzy (x : Decimal) : Prop :=
  ∃ f : FiniteDecimal, x = .finite f ∧ f.negative = false ∧ 0 ≤ f.toRat ∧ f.toRat ≤ 1

/-- The symbols that do not lead out of the truth values. -/
def Symbol.Fuzzy (p : Precision) : Symbol → Prop
  | .binaryOp op => op.Fuzzy p
  | _ => True

/-- The values of all variables are truth values. -/
def Memory.Fuzzy (m : Memory) : Prop := ∀ letter x, m.value? letter = some x → x.Fuzzy

/-- Digits were lost close to zero. -/
def Cause.IsUnderflow (cause : Cause) : Prop :=
  ∃ operation, cause = .outOfRange operation .underflow

section

variable {p : Precision} {m : Memory} {x y : Decimal} {r : ℚ}

/-! ### Operators -/

/-- A truth value has a value from zero to one and no minus sign. -/
theorem Decimal.Fuzzy.exists_value (h : x.Fuzzy) :
    x.Nonneg false ∧ ∃ r, x.HasValue r ∧ 0 ≤ r ∧ r ≤ 1 := by
  obtain ⟨f, rfl, sign, least, most⟩ := h
  exact ⟨FiniteDecimal.nonneg_of_negative sign, f.toRat, ⟨f, rfl, rfl⟩, least, most⟩

/-- A number without a minus sign is a truth value if its value is. -/
theorem Decimal.Fuzzy.of_value (sign : x.Nonneg false) (hx : x.HasValue r) (least : 0 ≤ r)
    (most : r ≤ 1) : x.Fuzzy := by
  obtain ⟨f, rfl, rfl⟩ := hx
  refine ⟨f, rfl, ?_, least, most⟩
  cases minus : f.negative with
  | false => rfl
  | true => exact absurd (sign minus).1 Bool.false_ne_true

/-- The only cause that names the loss of digits is that one. -/
theorem Cause.Names.isUnderflow {cause : Cause} (h : cause.Names (some .underflow)) :
    cause.IsUnderflow := by
  obtain ⟨-, condition⟩ := h
  cases cause with
  | outOfRange operation found =>
    cases condition
    exact ⟨operation, rfl⟩
  | _ => cases condition

/-- An operator stays on the truth values: its result is one, or digits were lost. -/
structure FuzzyOutcome (outcome : Except Cause Decimal) : Prop where
  /-- A result is a truth value. -/
  value {x : Decimal} : outcome = .ok x → x.Fuzzy
  /-- A failure is a loss of digits. -/
  failure {cause : Cause} : outcome = .error cause → cause.IsUnderflow

/-- An operator stays on the truth values if its answer on values does and if no result has a minus
sign. -/
theorem FuzzyOutcome.of_agree {outcome : Except Cause Decimal} {v : Except (Option Condition) ℚ}
    (h : Agree Cause.Names Decimal.HasValue outcome v) (hv : IsTruthAnswer v)
    (sign : ∀ x, outcome = .ok x → x.Nonneg false) : FuzzyOutcome outcome := by
  obtain ⟨b, within, rfl⟩ := hv
  cases within with
  | value least most =>
    cases h with
    | ok value =>
      constructor
      · rintro x ⟨⟩
        exact .of_value (sign _ rfl) value least most
      · rintro _ ⟨⟩
  | underflow =>
    cases h with
    | error names =>
      constructor
      · rintro _ ⟨⟩
      · rintro _ ⟨⟩
        exact names.isUnderflow

/-- Prefix operators stay on the truth values. -/
theorem PrefixOp.fuzzy_apply (op : PrefixOp) (hx : x.Fuzzy) : FuzzyOutcome (op.apply p x) := by
  obtain ⟨sign, r, value, least, most⟩ := hx.exists_value
  exact .of_agree (op.agree_onValue value) (op.isTruthAnswer least most)
    fun _ hy ↦ PrefixOp.nonneg_apply sign hy

/-- Postfix operators stay on the truth values. -/
theorem PostfixOp.fuzzy_apply (op : PostfixOp) (hx : x.Fuzzy) : FuzzyOutcome (op.apply p x) := by
  obtain ⟨sign, r, value, least, most⟩ := hx.exists_value
  exact .of_agree (op.agree_onValue value) (op.isTruthAnswer least most)
    fun _ hy ↦ PostfixOp.nonneg_apply sign hy

/-- Binary operators stay on the truth values, but for those that lead out of them. -/
theorem BinaryOp.fuzzy_apply {op : BinaryOp} (hop : op.Fuzzy p) (hx : x.Fuzzy) (hy : y.Fuzzy) :
    FuzzyOutcome (op.apply p x y) := by
  have notPower : op ≠ .power := by
    rintro rfl
    exact hop
  obtain ⟨sign, r, value, least, most⟩ := hx.exists_value
  obtain ⟨sign', s, value', least', most'⟩ := hy.exists_value
  exact .of_agree (op.agree_onValues notPower value value')
    (BinaryOp.isTruthAnswer hop notPower least most least' most')
    fun _ hz ↦ BinaryOp.nonneg_apply sign sign' hz

/-- The truth values, with the symbols that do not lead out of them. -/
def Domain.fuzzy (p : Precision) : Domain p where
  number := Decimal.Fuzzy
  symbol := Symbol.Fuzzy p
  prefixOp {op} _ _ _ hx := (op.fuzzy_apply hx).value
  postfixOp {op} _ _ _ hx := (op.fuzzy_apply hx).value
  binaryOp hop hx hy := (BinaryOp.fuzzy_apply hop hx hy).value

/-- On truth values operators fail only by losing digits. -/
theorem Domain.failsOnly_fuzzy (p : Precision) : (Domain.fuzzy p).FailsOnly Cause.IsUnderflow where
  prefixOp {op} _ _ _ hx := (op.fuzzy_apply hx).failure
  postfixOp {op} _ _ _ hx := (op.fuzzy_apply hx).failure
  binaryOp hop hx hy := (BinaryOp.fuzzy_apply hop hx hy).failure

/-! ### Expressions -/

/-- The scanner does not complain about operators. -/
theorem Lexeme.kind_toToken {lexeme : Lexeme} {cause : Cause}
    (h : lexeme.toToken m = .error cause) : cause.kind ≠ .domain := by
  rcases toToken_eq_error h with ⟨c, next, -, rfl | rfl⟩ | ⟨digits, -, rfl⟩ | ⟨l, -, rfl⟩
  all_goals nofun

/-- If the tokens of an expression come from a domain, its operators are complained about only for
causes that the domain allows. -/
theorem Domain.FailsOnly.evaluateExpression {d : Domain p} {allowed : Cause → Prop}
    (hd : d.FailsOnly allowed) {text : List Char} {start : Nat}
    (hl : ∀ x ∈ Lexeme.split (text.drop start), ∀ token, x.toToken m = .ok token →
      d.Contains token)
    {complaint : Complaint}
    (h : (evaluateExpression p m text start).result = .error (.complaint complaint))
    (kind : complaint.cause.kind = .domain) : allowed complaint.cause := by
  rcases Reading.failsAt_or_result h with
    ⟨before, behind, reached, cause, n, hsplit, -, hpushed, fails, rfl⟩ |
    ⟨final, cause, -, hresult, rfl⟩
  · rw [hsplit] at hl
    have inside : ∀ t ∈ reached, d.Contains t :=
      Domain.pushLexemes? (fun x hx ↦ hl x (List.mem_append_left _ hx)) hpushed
    have start : WellShaped [] := trivial
    have shape : WellShaped reached := start.pushMany ((pushLexemes?_eq_some_iff 0).mp hpushed).2
    cases behind with
    | nil => exact absurd rfl fails.ne_nil
    | cons x rest =>
      rw [Reading.ofLexemes] at fails
      cases hx : x.toToken m with
      | error found =>
        rw [hx] at fails
        cases fails
        exact absurd kind (Lexeme.kind_toToken hx)
      | ok token =>
        have next := hl x (List.mem_append_right _ List.mem_cons_self) token hx
        rw [hx] at fails
        cases fails with
        | stack tokens failure refused =>
          refine (hd.push shape inside next refused).resolve_left fun grammar ↦ ?_
          cases grammar.symm.trans kind
  · rcases result_eq_error hresult with ⟨s, -, rfl⟩ | ⟨-, rfl⟩
    · cases kind
    · cases kind

/-- A text on truth values: its numerals are at most one, and the sum, the quotient and the power do
not occur in it, nor does the disjunction unless there are two digits or more. -/
structure FuzzyText (p : Precision) (text : List Char) : Prop where
  /-- There is no sum. -/
  noSum : '+' ∉ text
  /-- There is no quotient. -/
  noQuotient : '/' ∉ text
  /-- There is no power. -/
  noPower : '^' ∉ text
  /-- Disjunctions are computed to two digits or more. -/
  disjunction : '$' ∈ text → 2 ≤ p.digits
  /-- The numerals are at most one. -/
  numeral {digits : List Char} {f : FiniteDecimal} :
    .numeral digits ∈ Lexeme.split text → FiniteDecimal.ofPlainNumeral? digits = some f →
      f.toRat ≤ 1

variable {text : List Char}

/-- The expression of a line on truth values is a text on truth values. -/
theorem FuzzyText.expression (ht : FuzzyText p text) :
    FuzzyText p (text.drop (expressionStart text)) := by
  have fewer {c : Char} (h : c ∉ text) : c ∉ text.drop (expressionStart text) :=
    mt List.mem_of_mem_drop h
  have lexemes : Lexeme.split (text.drop (expressionStart text)) ⊆ Lexeme.split text := by
    unfold expressionStart
    split
    · next c rest =>
      rw [Lexeme.split_colon]
      intro x hx
      exact List.mem_cons_of_mem _ (List.mem_cons_of_mem _ hx)
    · exact List.Subset.refl _
  exact ⟨fewer ht.noSum, fewer ht.noQuotient, fewer ht.noPower,
    fun h ↦ ht.disjunction (List.mem_of_mem_drop h), fun h ↦ ht.numeral (lexemes h)⟩

/-- The symbols of a text on truth values do not lead out of them. -/
theorem FuzzyText.fuzzy_symbol (ht : FuzzyText p text) {s : Symbol}
    (h : .symbol s ∈ Lexeme.split text) : s.Fuzzy p := by
  have occurs {c : Char} (hc : c ∈ s.spelling) : c ∈ text := Lexeme.mem_of_mem_split h hc
  match s with
  | .separator _ | .prefixOp _ | .postfixOp _ => trivial
  | .binaryOp op =>
    cases op with
    | sum => exact absurd (occurs (List.mem_singleton_self _)) ht.noSum
    | quotient => exact absurd (occurs (List.mem_singleton_self _)) ht.noQuotient
    | power => exact absurd (occurs (List.mem_singleton_self _)) ht.noPower
    | disjunction => exact ht.disjunction (occurs (List.mem_singleton_self _))
    | _ => trivial

/-- The tokens of a text on truth values are truth values and symbols that do not lead out of
them. -/
theorem FuzzyText.contains_toToken (hm : m.Fuzzy) (ht : FuzzyText p text) :
    ∀ x ∈ Lexeme.split text, ∀ token, x.toToken m = .ok token →
      (Domain.fuzzy p).Contains token := by
  intro lexeme hlexeme token h
  rcases Lexeme.toToken_eq_ok h with
    ⟨digits, f, rfl, hf, rfl⟩ | ⟨l, y, rfl, hy, rfl⟩ | ⟨s, rfl, rfl⟩
  · have sign := FiniteDecimal.negative_of_ofPlainNumeral? hf
    have least : 0 ≤ f.toRat := by
      rw [f.toRat_eq_abs, sign]
      exact abs_nonneg _
    exact ⟨f, rfl, sign, least, ht.numeral hlexeme hf⟩
  · exact hm l y hy
  · exact ht.fuzzy_symbol hlexeme

/-- The value of an expression on truth values is one, and its operators fail only by losing
digits. -/
theorem fuzzy_evaluateExpression (hm : m.Fuzzy) {start : Nat}
    (ht : FuzzyText p (text.drop start)) :
    (∀ x, (evaluateExpression p m text start).result = .ok x → x.Fuzzy) ∧
      ∀ complaint, (evaluateExpression p m text start).result = .error (.complaint complaint) →
        complaint.cause.kind = .domain → complaint.cause.IsUnderflow := by
  have tokens := ht.contains_toToken hm
  refine ⟨fun x hx ↦ ?_, fun complaint h kind ↦ ?_⟩
  · have pushed := evaluateExpression_result_eq_ok.mp hx
    exact Domain.pushLexemes? tokens pushed (.number x) List.mem_cons_self
  · exact (Domain.failsOnly_fuzzy p).evaluateExpression tokens h kind

/-! ### Lines -/

/-- Without values the variables are truth values. -/
theorem Memory.fuzzy_empty : Memory.empty.Fuzzy := by
  intro letter x h
  rw [value?_empty] at h
  cases h

/-- Putting a truth value into a slot leaves truth values. -/
theorem Memory.Fuzzy.put (hm : m.Fuzzy) (letter : Letter) (hx : x.Fuzzy) :
    (m.put letter x).Fuzzy :=
  forall_value?_put hm hx

/-- Truth values are closed under evaluation. Let the variables be truth values, and let a line be a
text on truth values. If the line has a value, that is a truth value, and
afterwards the variables still are. If an operator fails, it is because digits were lost close to
zero: no result is negative, none is too large, and none is undefined. The disjunction needs its two
digits: computed to one digit, 0.9 or 0.6 is two. -/
theorem evaluateLine_fuzzy (p : Precision) (m : Memory) (text : List Char) (hm : m.Fuzzy)
    (ht : FuzzyText p text) :
    (∀ x, (evaluateLine p m text).result = .ok (.value x) → x.Fuzzy) ∧
    (evaluateLine p m text).memory.Fuzzy ∧
    (∀ complaint, (evaluateLine p m text).result = .error (.complaint complaint) →
      complaint.cause.kind = .domain → complaint.cause.IsUnderflow) ∧
    (evaluateLine ⟨1, by decide⟩ .empty ['0', '.', '9', '$', '0', '.', '6']).result =
      .ok (.value (.finite ⟨false, 2, 0⟩)) := by
  obtain ⟨values, failures⟩ := fuzzy_evaluateExpression hm ht.expression
  refine ⟨fun x h ↦ ?_, ?_, fun complaint h kind ↦ ?_, by decide +kernel⟩
  · obtain ⟨y, hy, ⟨⟨⟩, -⟩ | ⟨letter, ⟨⟩, -⟩⟩ := evaluateLine_ok h
    exact values x hy
  · rcases evaluateLine_memory p m text with ⟨letter, rest, x, -, -, h, -⟩ | ⟨-, kept⟩
    · obtain ⟨y, hy, ⟨⟨⟩, -⟩ | ⟨letter, -, stored⟩⟩ := evaluateLine_ok h
      rw [stored]
      exact hm.put letter (values y hy)
    · rw [kept]
      exact hm
  · rcases evaluateLine_error h with ⟨c, rest, -, -, badName⟩ | failed
    · cases badName
      cases kind
    · exact failures complaint failed kind

end

/-- With 0.6 for `x`, the line `~x$0.9@(1%)` nests operators of three kinds, and its value is a
truth value. -/
theorem evaluateLine_fuzzy_nested :
    let m := Memory.empty.put ⟨49⟩ (.finite ⟨false, 6, -1⟩)
    let text := ['~', 'x', '$', '0', '.', '9', '@', '(', '1', '%', ')']
    m.Fuzzy ∧ FuzzyText .standard text ∧
      ∃ x, (evaluateLine .standard m text).result = .ok (.value x) ∧ x.Fuzzy := by
  intro m text
  have stored : m.Fuzzy := Memory.fuzzy_empty.put ⟨49⟩ ⟨_, rfl, rfl,
    by norm_num [FiniteDecimal.toRat, FiniteDecimal.signed],
    by norm_num [FiniteDecimal.toRat, FiniteDecimal.signed]⟩
  have cut : Lexeme.split text =
      [.symbol (.prefixOp .complement), .letter ⟨49⟩, .symbol (.binaryOp .disjunction),
        .numeral ['0', '.', '9'], .symbol (.binaryOp .average), .symbol (.separator .opening),
        .numeral ['1'], .symbol (.postfixOp .percent), .symbol (.separator .closing)] := by
    decide +kernel
  have line : FuzzyText .standard text := by
    refine ⟨by decide, by decide, by decide, fun _ ↦ by decide, fun {digits f} h hf ↦ ?_⟩
    rw [cut] at h
    have either : digits = ['0', '.', '9'] ∨ digits = ['1'] := by simpa using h
    rcases either with rfl | rfl
    · obtain rfl : f = ⟨false, 9, -1⟩ := Option.some.inj (hf.symm.trans (by decide))
      norm_num [FiniteDecimal.toRat, FiniteDecimal.signed]
    · obtain rfl : f = ⟨false, 1, 0⟩ := Option.some.inj (hf.symm.trans (by decide))
      norm_num [FiniteDecimal.toRat, FiniteDecimal.signed]
  have value : (evaluateLine .standard m text).result =
      .ok (.value (.finite ⟨false, 475, -3⟩)) := by
    decide +kernel
  exact ⟨stored, line, _, value, (evaluateLine_fuzzy .standard m text stored line).1 _ value⟩

end FuzzyCalc
