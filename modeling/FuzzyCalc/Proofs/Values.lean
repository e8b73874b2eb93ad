import FuzzyCalc.Proofs.Diagnosis
import FuzzyCalc.Proofs.Domain
import FuzzyCalc.Proofs.Sign

/-!
# Values not below zero

A numeral has no minus sign, and a variable that reads as below zero has no value. So if the values
of the variables are finite and not below zero, then so is every number on the stack, at every
moment of an evaluation, and the value in the end.
-/

namespace FuzzyCalc

namespace Stack

/-- The stacks on the way of pushing tokens onto the empty one: before, between and after the
tokens, and at each turn of pushing one, with the number on its way down on top. -/
inductive Passes (p : Precision) (tokens : List Token) : Stack → Prop
  /-- Some of the tokens have been taken. -/
  | between {before : List Token} {stack : Stack} (h : before <+: tokens)
    (hs : pushMany p [] before = .ok stack) : Passes p tokens stack
  /-- Some of the tokens have been taken, and the next one is being pushed. -/
  | within {before : List Token} {token : Token} {stack rest : Stack} {x : Decimal}
    (h : before ++ [token] <+: tokens) (hs : pushMany p [] before = .ok stack)
    (ht : Settling p stack token rest x) : Passes p tokens (.number x :: rest)

/-- Pushing tokens behind others traces only stacks on the way. -/
theorem passes_of_mem_pushAll {p : Precision} (before : List Token) {stack next : Stack}
    {tokens : List (Nat × Token)} {offset : Nat} {token : Token}
    (hs : pushMany p [] before = .ok stack)
    (h : .taken offset token next ∈ (pushAll p stack tokens).trace) :
    Passes p (before ++ tokens.map Prod.snd) next := by
  induction tokens generalizing before stack with
  | nil => cases h
  | cons head rest ih =>
    obtain ⟨first, pushed⟩ := head
    rw [pushAll] at h
    cases htaken : push p stack pushed with
    | error refusal =>
      rw [htaken] at h
      cases refusal with
      | fault cause => cases h
      | breach below => cases h
    | ok after =>
      rw [htaken] at h
      have reached : pushMany p [] (before ++ [pushed]) = .ok after :=
        pushMany_concat_eq_ok.mpr ⟨stack, hs, htaken⟩
      have split : before ++ (pushed :: rest.map Prod.snd) =
          before ++ [pushed] ++ rest.map Prod.snd := by simp
      rw [List.map_cons, split]
      rcases List.mem_cons.mp h with heq | later
      · cases heq
        exact .between (List.prefix_append _ _) reached
      · exact ih (before ++ [pushed]) reached later

end Stack

open Stack

/-- Every stack in the trace of a line is one on the way of pushing the tokens of its expression. -/
theorem passes_of_mem_trace {p : Precision} {m : Memory} {text : List Char} {offset : Nat}
    {token : Token} {stack : Stack}
    (h : .taken offset token stack ∈ (evaluateLine p m text).trace) :
    Passes p ((Reading.scan m text (expressionStart text)).tokens.map Prod.snd) stack := by
  have expression {start : Nat}
      (h : .taken offset token stack ∈ (evaluateExpression p m text start).trace) :
      Passes p ((Reading.scan m text start).tokens.map Prod.snd) stack :=
    passes_of_mem_pushAll [] rfl h
  rcases line_cases text with ⟨c, rest, rfl, hc⟩ | ⟨c, rest, letter, rfl, hc⟩ | bare
  · rw [evaluateLine_badName hc] at h
    cases h
  · cases hx : (evaluateExpression p m (c :: ':' :: rest) 2).result with
    | ok x =>
      rw [evaluateLine_assignment hc hx] at h
      rcases List.mem_append.mp h with taken | assigned
      · exact expression taken
      · cases List.mem_singleton.mp assigned
    | error failure =>
      rw [evaluateLine_failure hc hx] at h
      exact expression h
  · rw [evaluateLine_expression bare] at h
    rw [expressionStart_of_expression bare]
    exact expression h

/-- Every stack on the way stays in the domain of the tokens. -/
theorem Domain.passes {p : Precision} {d : Domain p} {tokens : List Token} {stack : Stack}
    (ht : ∀ t ∈ tokens, d.Contains t) (h : Passes p tokens stack) :
    ∀ t ∈ stack, d.Contains t := by
  have empty : ∀ t ∈ ([] : Stack), d.Contains t := nofun
  cases h with
  | between hbefore hs =>
    exact Domain.pushMany empty (fun t h ↦ ht t (hbefore.subset h)) hs
  | within hbefore hs turn =>
    have taken := Domain.pushMany empty
      (fun t h ↦ ht t (hbefore.subset (List.mem_append_left _ h))) hs
    have next := ht _ (hbefore.subset (List.mem_append_right _ (List.mem_singleton_self _)))
    obtain ⟨hrest, hx⟩ := Domain.settling taken next turn
    exact List.forall_mem_cons.mpr ⟨hx, hrest⟩

/-- Every token that the scanner finds is one that a lexeme of the text is. -/
theorem Reading.exists_lexeme {m : Memory} {lexemes : List Lexeme} {offset : Nat} {token : Token}
    (h : token ∈ (Reading.ofLexemes m offset lexemes).tokens.map Prod.snd) :
    ∃ x ∈ lexemes, x.toToken m = .ok token := by
  induction lexemes generalizing offset with
  | nil => cases h
  | cons x rest ih =>
    rw [Reading.ofLexemes] at h
    cases hx : x.toToken m with
    | error cause =>
      rw [hx] at h
      cases h
    | ok first =>
      rw [hx] at h
      rcases List.mem_cons.mp h with rfl | h
      · exact ⟨x, List.mem_cons_self, hx⟩
      · obtain ⟨y, hy, ht⟩ := ih h
        exact ⟨y, List.mem_cons_of_mem _ hy, ht⟩

/-- Lexemes that are pushed leave a stack in a domain if their tokens are in it. -/
theorem Domain.pushLexemes? {p : Precision} {d : Domain p} {m : Memory} {lexemes : List Lexeme}
    {stack : Stack}
    (hl : ∀ x ∈ lexemes, ∀ token, x.toToken m = .ok token → d.Contains token)
    (h : Stack.pushLexemes? p m [] lexemes = some stack) : ∀ t ∈ stack, d.Contains t := by
  have empty : ∀ t ∈ ([] : Stack), d.Contains t := nofun
  refine Domain.pushMany empty ?_ ((pushLexemes?_eq_some_iff 0).mp h).2
  intro token ht
  obtain ⟨x, hx, htoken⟩ := Reading.exists_lexeme ht
  exact hl x hx token htoken

/-- A plain numeral has no minus sign. -/
theorem FiniteDecimal.negative_of_ofPlainNumeral? {text : List Char} {x : FiniteDecimal}
    (h : FiniteDecimal.ofPlainNumeral? text = some x) : x.negative = false := by
  unfold ofPlainNumeral? at h
  dsimp only at h
  split at h
  · split at h
    · cases h
    · cases h
      rfl
  · split at h
    · cases h
      rfl
    · cases h
  · cases h

/-- The values of all variables are finite and not below zero. -/
def Memory.Nonneg (minusZero : Bool) (m : Memory) : Prop :=
  ∀ letter x, m.value? letter = some x → x.Nonneg minusZero

/-- The numbers that are finite and not below zero, with all symbols. -/
def Domain.nonnegative (p : Precision) (minusZero : Bool) : Domain p where
  number x := x.Nonneg minusZero
  symbol _ := True
  prefixOp _ hx h := PrefixOp.nonneg_apply hx h
  postfixOp _ hx h := PostfixOp.nonneg_apply hx h
  binaryOp _ hx hy h := BinaryOp.nonneg_apply hx hy h

section

variable {s : Bool} {p : Precision} {m : Memory} {text : List Char} {start : Nat} {x : Decimal}

/-- A lexeme is a token not below zero if the variables are not. -/
theorem Lexeme.contains_toToken (hm : m.Nonneg s) {lexeme : Lexeme} {token : Token}
    (h : lexeme.toToken m = .ok token) : (Domain.nonnegative p s).Contains token := by
  rcases toToken_eq_ok h with ⟨digits, f, -, hf, rfl⟩ | ⟨l, y, -, hy, rfl⟩ | ⟨symbol, -, rfl⟩
  · exact FiniteDecimal.nonneg_of_negative (FiniteDecimal.negative_of_ofPlainNumeral? hf)
  · exact hm l y hy
  · trivial

/-- The tokens of a text are not below zero if the variables are not. -/
theorem contains_of_mem_scan (hm : m.Nonneg s) :
    ∀ token ∈ (Reading.scan m text start).tokens.map Prod.snd,
      (Domain.nonnegative p s).Contains token := by
  intro token h
  obtain ⟨lexeme, -, ht⟩ := Reading.exists_lexeme h
  exact lexeme.contains_toToken hm ht

/-- No number that is ever on the stack is below zero if no variable is. -/
theorem nonneg_of_passes (hm : m.Nonneg s) {stack : Stack}
    (h : Passes p ((Reading.scan m text start).tokens.map Prod.snd) stack) :
    ∀ x, .number x ∈ stack → x.Nonneg s :=
  fun _ hx ↦ Domain.passes (contains_of_mem_scan hm) h _ hx

/-- The value of an expression is not below zero if no variable is. -/
theorem nonneg_of_evaluateExpression (hm : m.Nonneg s)
    (h : (evaluateExpression p m text start).result = .ok x) : x.Nonneg s :=
  Domain.pushLexemes? (fun lexeme _ _ ↦ lexeme.contains_toToken hm)
    (evaluateExpression_result_eq_ok.mp h) _ List.mem_cons_self

/-- The value of a line is not below zero if no variable is. -/
theorem nonneg_of_evaluateLine (hm : m.Nonneg s)
    (h : (evaluateLine p m text).result = .ok (.value x)) : x.Nonneg s := by
  have pushed := evaluateLine_result_eq_value.mp h
  have expression : (evaluateExpression p m text 0).result = .ok x :=
    evaluateExpression_result_eq_ok.mpr pushed
  exact nonneg_of_evaluateExpression hm expression

end

end FuzzyCalc
