import FuzzyCalc.Line
import FuzzyCalc.Proofs.Success

/-!
# Pushing many tokens

Tokens are pushed one after the other up to the first that is refused. An expression is evaluated in
this way, with a trace of the stacks on the way.
-/

namespace FuzzyCalc

namespace Stack

variable {p : Precision}

/-! ### One token -/

/-- A number goes through a prefix operator that waits for it. -/
theorem settle_prefixOp (op : PrefixOp) (below : Stack) (x : Decimal) :
    settle p (.symbol (.prefixOp op) :: below) x = refusing (op.apply p x) >>= settle p below := by
  rw [settle]
  cases op.apply p x with
  | ok y => rfl
  | error cause => rfl

/-- A number goes through a binary operator that waits for it. -/
theorem settle_binaryOp (op : BinaryOp) (left : Decimal) (below : Stack) (x : Decimal) :
    settle p (.symbol (.binaryOp op) :: .number left :: below) x =
      refusing (op.apply p left x) >>= settle p below := by
  rw [settle]
  cases op.apply p left x with
  | ok y => rfl
  | error cause => rfl

/-- A postfix operator acts on the number on top, and the result goes on down. -/
theorem push_postfixOp (op : PostfixOp) (x : Decimal) (below : Stack) :
    push p (.number x :: below) (.symbol (.postfixOp op)) =
      refusing (op.apply p x) >>= settle p below := by
  rw [push, applyPostfix]
  cases op.apply p x with
  | ok y => rfl
  | error cause => rfl

/-- A binary operator waits on top of its left operand. -/
theorem push_binaryOp (op : BinaryOp) (x : Decimal) (below : Stack) :
    push p (.number x :: below) (.symbol (.binaryOp op)) =
      .ok (.symbol (.binaryOp op) :: .number x :: below) := rfl

/-! ### One token after the other -/

/-- Push tokens one after the other, up to the first that is refused. -/
def pushMany (p : Precision) (stack : Stack) (tokens : List Token) : Except Refusal Stack :=
  tokens.foldlM (push p) stack

/-- Without tokens nothing happens. -/
@[simp] theorem pushMany_nil (stack : Stack) : pushMany p stack [] = .ok stack := rfl

/-- The first token is pushed first. -/
theorem pushMany_cons (stack : Stack) (token : Token) (rest : List Token) :
    pushMany p stack (token :: rest) = push p stack token >>= (pushMany p · rest) := by
  rw [pushMany, List.foldlM_cons]
  rfl

/-- One token is pushed as such. -/
theorem pushMany_singleton (stack : Stack) (token : Token) :
    pushMany p stack [token] = push p stack token := by
  rw [pushMany_cons]
  cases push p stack token with
  | ok next => rfl
  | error refusal => rfl

/-- Two lists of tokens are pushed one after the other. -/
theorem pushMany_append (stack : Stack) (first second : List Token) :
    pushMany p stack (first ++ second) = pushMany p stack first >>= (pushMany p · second) := by
  rw [pushMany, List.foldlM_append]
  rfl

/-- The last token is pushed onto what the others have left. -/
theorem pushMany_concat_eq_ok {stack final : Stack} {tokens : List Token} {token : Token} :
    pushMany p stack (tokens ++ [token]) = .ok final ↔
      ∃ next, pushMany p stack tokens = .ok next ∧ push p next token = .ok final := by
  simp only [pushMany_append, bind_eq_ok, pushMany_singleton]

/-- If not all tokens are taken, some are, and the next one is refused. -/
theorem exists_refused {stack : Stack} {tokens : List Token} {refusal : Refusal}
    (h : pushMany p stack tokens = .error refusal) :
    ∃ before token after next, tokens = before ++ token :: after ∧
      pushMany p stack before = .ok next ∧ push p next token = .error refusal := by
  induction tokens generalizing stack with
  | nil => cases h
  | cons token rest ih =>
    rw [pushMany_cons] at h
    rcases bind_eq_error.mp h with first | ⟨next, taken, later⟩
    · exact ⟨[], token, rest, stack, rfl, rfl, first⟩
    · obtain ⟨before, refused, after, final, rfl, hbefore, hrefused⟩ := ih later
      refine ⟨token :: before, refused, after, final, rfl, ?_, hrefused⟩
      rw [pushMany_cons, taken]
      exact hbefore

/-- An expression is evaluated by pushing its tokens. -/
theorem pushAll_result_eq_ok {stack final : Stack} {tokens : List (Nat × Token)} :
    (pushAll p stack tokens).result = .ok final ↔
      pushMany p stack (tokens.map Prod.snd) = .ok final := by
  induction tokens generalizing stack with
  | nil => simp [pushAll]
  | cons head rest ih =>
    obtain ⟨offset, token⟩ := head
    rw [List.map_cons, pushMany_cons, pushAll]
    cases hpush : push p stack token with
    | ok next => exact ih
    | error refusal =>
      cases refusal with
      | fault cause => simp [bind, Except.bind]
      | breach rest => simp [bind, Except.bind]

/-- An evaluation breaks down only at a token that lacks an operand. -/
theorem exists_breach_of_pushAll {stack : Stack} {tokens : List (Nat × Token)}
    (h : (pushAll p stack tokens).result = .error .breach) :
    ∃ rest, pushMany p stack (tokens.map Prod.snd) = .error (.breach rest) := by
  induction tokens generalizing stack with
  | nil => cases h
  | cons head rest ih =>
    obtain ⟨offset, token⟩ := head
    rw [pushAll] at h
    rw [List.map_cons, pushMany_cons]
    cases hpush : push p stack token with
    | ok next =>
      rw [hpush] at h
      exact ih h
    | error refusal =>
      rw [hpush] at h
      cases refusal with
      | fault cause => cases h
      | breach below => exact ⟨below, rfl⟩

end Stack

end FuzzyCalc
