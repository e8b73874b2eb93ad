import FuzzyCalc.Proofs.Success

/-!
# Outcomes that agree

Two chains of steps agree if they succeed together and fail together, with results and failures that
are related. If each step agrees with its counterpart, whenever their inputs are related, then so do
the chains.
-/

namespace FuzzyCalc

/-- Two outcomes agree: two related results, or two related failures. -/
inductive Agree {ε ε' α β : Type} (E : ε → ε' → Prop) (R : α → β → Prop) :
    Except ε α → Except ε' β → Prop
  /-- Both succeed. -/
  | ok {x : α} {y : β} (h : R x y) : Agree E R (.ok x) (.ok y)
  /-- Both fail. -/
  | error {e : ε} {e' : ε'} (h : E e e') : Agree E R (.error e) (.error e')

namespace Agree

variable {ε ε' ε'' α α' β β' γ : Type} {E : ε → ε' → Prop} {R : α → β → Prop}
  {a : Except ε α} {b : Except ε' β}

/-- Outcomes that agree are two results or two failures. -/
theorem ok_or_error (h : Agree E R a b) :
    (∃ x y, a = .ok x ∧ b = .ok y ∧ R x y) ∨ ∃ e e', a = .error e ∧ b = .error e' ∧ E e e' := by
  cases h with
  | ok h => exact .inl ⟨_, _, rfl, rfl, h⟩
  | error h => exact .inr ⟨_, _, rfl, rfl, h⟩

/-- What agrees with a success is one. -/
theorem exists_left {y : β} (h : Agree E R a (.ok y)) : ∃ x, a = .ok x ∧ R x y := by
  cases h with
  | ok h => exact ⟨_, rfl, h⟩

/-- What agrees with a failure is one. -/
theorem exists_error {e' : ε'} (h : Agree E R a (.error e')) : ∃ e, a = .error e ∧ E e e' := by
  cases h with
  | error h => exact ⟨_, rfl, h⟩

/-- What a success agrees with is one. -/
theorem exists_right {x : α} (h : Agree E R (.ok x) b) : ∃ y, b = .ok y ∧ R x y := by
  cases h with
  | ok h => exact ⟨_, rfl, h⟩

/-- Chains agree if their first steps do, and the others do on related results. -/
theorem bind {S : α' → β' → Prop} {f : α → Except ε α'} {g : β → Except ε' β'}
    (h : Agree E R a b) (next : ∀ x y, R x y → Agree E S (f x) (g y)) :
    Agree E S (a >>= f) (b >>= g) := by
  cases h with
  | ok h => exact next _ _ h
  | error h => exact error h

/-- Outcomes whose results are changed agree if the changed results are related. -/
theorem map {S : α' → β' → Prop} {f : α → α'} {g : β → β'} (h : Agree E R a b)
    (next : ∀ x y, R x y → S (f x) (g y)) : Agree E S (f <$> a) (g <$> b) := by
  cases h with
  | ok h => exact ok (next _ _ h)
  | error h => exact error h

/-- Outcomes whose failures are changed agree if the changed failures are related. -/
theorem mapError {δ δ' : Type} {F : δ → δ' → Prop} {f : ε → δ} {g : ε' → δ'} (h : Agree E R a b)
    (next : ∀ e e', E e e' → F (f e) (g e')) : Agree F R (a.mapError f) (b.mapError g) := by
  cases h with
  | ok h => exact ok h
  | error h => exact error (next _ _ h)

/-- Outcomes that agree in one way agree in any weaker way. -/
theorem mono {F : ε → ε' → Prop} {S : α → β → Prop} (h : Agree E R a b)
    (failures : ∀ e e', E e e' → F e e') (results : ∀ x y, R x y → S x y) : Agree F S a b := by
  cases h with
  | ok h => exact ok (results _ _ h)
  | error h => exact error (failures _ _ h)

/-- Outcomes that agree with the same outcome agree with each other. -/
theorem join {E' : ε'' → ε' → Prop} {R' : γ → β → Prop} {c : Except ε'' γ} (h : Agree E R a b)
    (h' : Agree E' R' c b) :
    Agree (fun e e'' ↦ ∃ e', E e e' ∧ E' e'' e') (fun x z ↦ ∃ y, R x y ∧ R' z y) a c := by
  cases h with
  | ok h =>
    cases h' with
    | ok h' => exact ok ⟨_, h, h'⟩
  | error h =>
    cases h' with
    | error h' => exact error ⟨_, h, h'⟩

end Agree

end FuzzyCalc
