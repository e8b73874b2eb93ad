import FuzzyCalc.Proofs.Symmetry

/-!
# Comparisons

A comparison of finite numbers always has an answer, and at every precision it is that of comparing
the exact values: no operand is rounded, and zeros count nothing, neither those that a number ends
in nor their signs. So the six comparisons fit together as those of one total order, in which a
minimum and a maximum are one of the operands, digit for digit.
-/

namespace FuzzyCalc

/-- The relation of two values that a comparison asks about; other operators ask about none. -/
def BinaryOp.relation? : BinaryOp → Option (ℚ → ℚ → Prop)
  | .equal => some fun r s ↦ r = s
  | .less => some fun r s ↦ r < s
  | .more => some fun r s ↦ r > s
  | .notEqual => some fun r s ↦ r ≠ s
  | .lessOrEqual => some fun r s ↦ r ≤ s
  | .moreOrEqual => some fun r s ↦ r ≥ s
  | _ => none

/-- An operator answers yes. -/
def BinaryOp.Affirms (p : Precision) (op : BinaryOp) (x y : FiniteDecimal) : Prop :=
  op.apply p (.finite x) (.finite y) = .ok .one

/-- An operator answers no. -/
def BinaryOp.Denies (p : Precision) (op : BinaryOp) (x y : FiniteDecimal) : Prop :=
  op.apply p (.finite x) (.finite y) = .ok .zero

namespace BinaryOp

variable {p : Precision} {op : BinaryOp} {relation : ℚ → ℚ → Prop} {x y : FiniteDecimal}

instance : Decidable (op.Affirms p x y) := inferInstanceAs (Decidable (_ = _))

instance : Decidable (op.Denies p x y) := inferInstanceAs (Decidable (_ = _))

/-- What is asked about the order of two numbers is answered by the order of their values. -/
theorem attempt_order (operation : List Token) (ask : Ordering → Bool) (x y : FiniteDecimal) :
    attempt operation ((fun o ↦ Decimal.ofBool (ask o)) <$> (Decimal.finite x).order (.finite y)) =
      .ok (.ofBool (ask (compare x.toRat y.toRat))) := by
  rw [(Decimal.hasValue_finite x).order (Decimal.hasValue_finite y)]
  rfl

/-- What is asked about the equality of two numbers is answered by that of their values. -/
theorem attempt_equals (operation : List Token) (ask : Bool → Bool) (x y : FiniteDecimal) :
    attempt operation
        ((fun yes ↦ Decimal.ofBool (ask yes)) <$> (Decimal.finite x).equals (.finite y)) =
      .ok (.ofBool (ask (decide (x.toRat = y.toRat)))) := by
  rw [(Decimal.hasValue_finite x).equals (Decimal.hasValue_finite y)]
  rfl

/-- A comparison answers whether the exact values are in its relation. -/
theorem exists_answer (h : op.relation? = some relation) (p : Precision) (x y : FiniteDecimal) :
    ∃ yes : Bool, op.apply p (.finite x) (.finite y) = .ok (.ofBool yes) ∧
      (yes = true ↔ relation x.toRat y.toRat) := by
  cases op with
  | equal =>
    cases h
    exact ⟨_, attempt_equals _ id x y, decide_eq_true_iff⟩
  | notEqual =>
    cases h
    exact ⟨_, attempt_equals _ (!·) x y, by simp⟩
  | less =>
    cases h
    exact ⟨_, attempt_order _ (·.isLT) x y, by rw [isLT_compare, decide_eq_true_iff]⟩
  | more =>
    cases h
    exact ⟨_, attempt_order _ (·.isGT) x y, by rw [isGT_compare, decide_eq_true_iff]⟩
  | lessOrEqual =>
    cases h
    exact ⟨_, attempt_order _ (·.isLE) x y, by rw [isLE_compare, decide_eq_true_iff]⟩
  | moreOrEqual =>
    cases h
    exact ⟨_, attempt_order _ (·.isGE) x y, by rw [isGE_compare, decide_eq_true_iff]⟩
  | _ => cases h

/-- A comparison answers yes if the exact values are in its relation. -/
theorem affirms_iff (h : op.relation? = some relation) :
    op.Affirms p x y ↔ relation x.toRat y.toRat := by
  obtain ⟨yes, answer, asked⟩ := exists_answer h p x y
  rw [Affirms, answer, ← asked]
  cases yes with
  | false => exact ⟨nofun, nofun⟩
  | true => exact ⟨fun _ ↦ rfl, fun _ ↦ rfl⟩

/-- A comparison answers no if they are not. -/
theorem denies_iff (h : op.relation? = some relation) :
    op.Denies p x y ↔ ¬ relation x.toRat y.toRat := by
  obtain ⟨yes, answer, asked⟩ := exists_answer h p x y
  rw [Denies, answer, ← asked]
  cases yes with
  | false => exact ⟨nofun, fun _ ↦ rfl⟩
  | true => exact ⟨nofun, fun denied ↦ absurd rfl denied⟩

/-- Of less, equal and more exactly one is affirmed. -/
theorem affirms_trichotomy (p : Precision) (x y : FiniteDecimal) :
    less.Affirms p x y ∧ equal.Denies p x y ∧ more.Denies p x y ∨
      less.Denies p x y ∧ equal.Affirms p x y ∧ more.Denies p x y ∨
      less.Denies p x y ∧ equal.Denies p x y ∧ more.Affirms p x y := by
  have isLess : less.Affirms p x y ↔ x.toRat < y.toRat := affirms_iff rfl
  have isEqual : equal.Affirms p x y ↔ x.toRat = y.toRat := affirms_iff rfl
  have isMore : more.Affirms p x y ↔ x.toRat > y.toRat := affirms_iff rfl
  have notLess : less.Denies p x y ↔ ¬ x.toRat < y.toRat := denies_iff rfl
  have notEqual : equal.Denies p x y ↔ ¬ x.toRat = y.toRat := denies_iff rfl
  have notMore : more.Denies p x y ↔ ¬ x.toRat > y.toRat := denies_iff rfl
  rw [isLess, isEqual, isMore, notLess, notEqual, notMore]
  rcases lt_trichotomy x.toRat y.toRat with below | same | above
  · exact .inl ⟨below, below.ne, below.not_gt⟩
  · exact .inr (.inl ⟨same.not_lt, same, same.not_gt⟩)
  · exact .inr (.inr ⟨above.not_gt, above.ne', above⟩)

/-- A minimum is one of the operands and at most both of them. -/
theorem exists_least (p : Precision) (x y : FiniteDecimal) :
    ∃ v, (v = x ∨ v = y) ∧ minimum.apply p (.finite x) (.finite y) = .ok (.finite v) ∧
      lessOrEqual.Affirms p v x ∧ lessOrEqual.Affirms p v y := by
  obtain ⟨_, applied, v, rfl, value⟩ :=
    exists_minimum p (Decimal.hasValue_finite x) (Decimal.hasValue_finite y)
  have isAtMost (w : FiniteDecimal) :
      lessOrEqual.Affirms p v w ↔ min x.toRat y.toRat ≤ w.toRat := by
    rw [← value]
    exact affirms_iff rfl
  have selects : minimum.Selects := trivial
  have operand : v = x ∨ v = y :=
    (eq_operand selects applied).imp Decimal.finite.inj Decimal.finite.inj
  exact ⟨v, operand, applied, (isAtMost x).mpr (min_le_left _ _),
    (isAtMost y).mpr (min_le_right _ _)⟩

/-- A maximum is one of the operands and at least both of them. -/
theorem exists_greatest (p : Precision) (x y : FiniteDecimal) :
    ∃ v, (v = x ∨ v = y) ∧ maximum.apply p (.finite x) (.finite y) = .ok (.finite v) ∧
      moreOrEqual.Affirms p v x ∧ moreOrEqual.Affirms p v y := by
  obtain ⟨_, applied, v, rfl, value⟩ :=
    exists_maximum p (Decimal.hasValue_finite x) (Decimal.hasValue_finite y)
  have isAtLeast (w : FiniteDecimal) :
      moreOrEqual.Affirms p v w ↔ max x.toRat y.toRat ≥ w.toRat := by
    rw [← value]
    exact affirms_iff rfl
  have selects : maximum.Selects := trivial
  have operand : v = x ∨ v = y :=
    (eq_operand selects applied).imp Decimal.finite.inj Decimal.finite.inj
  exact ⟨v, operand, applied, (isAtLeast x).mpr (le_max_left _ _),
    (isAtLeast y).mpr (le_max_right _ _)⟩

/-- At every precision a comparison of finite numbers answers yes or no, as their exact values are
in its relation or not. So of less, equal and more exactly one is affirmed; at most is less or
equal, at least is more or equal, and unequal is not equal. At most is a total order of numbers, in
which those are one that are equal. A minimum is one of its operands and at most both of them, a
maximum is one of its operands and at least both of them, with its sign and digits as they were. -/
theorem comparisons_decide_order (p : Precision) (x y z : FiniteDecimal) :
    (∀ op relation, relation? op = some relation →
      relation x.toRat y.toRat ∧ op.Affirms p x y ∨
        ¬ relation x.toRat y.toRat ∧ op.Denies p x y) ∧
    (less.Affirms p x y ∧ equal.Denies p x y ∧ more.Denies p x y ∨
      less.Denies p x y ∧ equal.Affirms p x y ∧ more.Denies p x y ∨
      less.Denies p x y ∧ equal.Denies p x y ∧ more.Affirms p x y) ∧
    (lessOrEqual.Affirms p x y ↔ less.Affirms p x y ∨ equal.Affirms p x y) ∧
    (moreOrEqual.Affirms p x y ↔ more.Affirms p x y ∨ equal.Affirms p x y) ∧
    (notEqual.Affirms p x y ↔ ¬ equal.Affirms p x y) ∧
    (lessOrEqual.Affirms p x y ∨ lessOrEqual.Affirms p y x) ∧
    (lessOrEqual.Affirms p x y ∧ lessOrEqual.Affirms p y x ↔ equal.Affirms p x y) ∧
    (lessOrEqual.Affirms p x y → lessOrEqual.Affirms p y z → lessOrEqual.Affirms p x z) ∧
    (∃ v, (v = x ∨ v = y) ∧ minimum.apply p (.finite x) (.finite y) = .ok (.finite v) ∧
      lessOrEqual.Affirms p v x ∧ lessOrEqual.Affirms p v y) ∧
    ∃ v, (v = x ∨ v = y) ∧ maximum.apply p (.finite x) (.finite y) = .ok (.finite v) ∧
      moreOrEqual.Affirms p v x ∧ moreOrEqual.Affirms p v y := by
  have isEqual : equal.Affirms p x y ↔ x.toRat = y.toRat := affirms_iff rfl
  have isLess : less.Affirms p x y ↔ x.toRat < y.toRat := affirms_iff rfl
  have isMore : more.Affirms p x y ↔ x.toRat > y.toRat := affirms_iff rfl
  have isUnequal : notEqual.Affirms p x y ↔ x.toRat ≠ y.toRat := affirms_iff rfl
  have isAtLeast : moreOrEqual.Affirms p x y ↔ x.toRat ≥ y.toRat := affirms_iff rfl
  have isAtMost (v w : FiniteDecimal) : lessOrEqual.Affirms p v w ↔ v.toRat ≤ w.toRat :=
    affirms_iff rfl
  refine ⟨?answers, affirms_trichotomy p x y, ?atMost, ?atLeast, ?unequal, ?total, ?antisymm,
    ?trans, exists_least p x y, exists_greatest p x y⟩
  case answers =>
    intro op relation h
    by_cases related : relation x.toRat y.toRat
    · exact .inl ⟨related, (affirms_iff h).mpr related⟩
    · exact .inr ⟨related, (denies_iff h).mpr related⟩
  case atMost => rw [isAtMost, isLess, isEqual, le_iff_lt_or_eq]
  case atLeast => rw [isAtLeast, isMore, isEqual, ge_iff_le, le_iff_lt_or_eq, eq_comm]
  case unequal => rw [isUnequal, isEqual]
  case total =>
    rw [isAtMost, isAtMost]
    exact le_total _ _
  case antisymm => rw [isAtMost, isAtMost, isEqual, le_antisymm_iff]
  case trans =>
    rw [isAtMost, isAtMost, isAtMost]
    exact le_trans

/-- At one digit 0.60 is equal to 0.6 and 0.61 is more, minus zero is equal to zero, and 0.60 is at
most 0.61 because 0.6 is. -/
theorem comparisons_decide_order_sixty :
    let p : Precision := ⟨1, by decide⟩
    let long : FiniteDecimal := ⟨false, 60, -2⟩
    let short : FiniteDecimal := ⟨false, 6, -1⟩
    let above : FiniteDecimal := ⟨false, 61, -2⟩
    equal.Affirms p long short ∧ less.Affirms p short above ∧
      equal.Affirms p ⟨true, 0, 0⟩ ⟨false, 0, 3⟩ ∧ lessOrEqual.Affirms p long above ∧
      minimum.apply p (.finite long) (.finite short) = .ok (.finite long) := by
  intro p long short above
  have same : equal.Affirms p long short := by decide +kernel
  have more : less.Affirms p short above := by decide +kernel
  obtain ⟨-, -, -, -, -, -, antisymm, trans, -⟩ := comparisons_decide_order p long short above
  have step : lessOrEqual.Affirms p short above :=
    (comparisons_decide_order p short above above).2.2.1.mpr (.inl more)
  exact ⟨same, more, by decide +kernel, trans (antisymm.mpr same).1 step, by decide +kernel⟩

end BinaryOp

end FuzzyCalc
