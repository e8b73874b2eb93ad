import FuzzyCalc.Proofs.Reachable

/-!
# Levels in parentheses

No push looks below the parenthesis that a level is in. So tokens that the empty stack takes are
taken behind an opening parenthesis as well, and leave the same there, whatever lies below it. If
they come down to a number, then closing the parenthesis sets it free: what is below does with it
what it does with a number that has been pushed, even where it refuses.
-/

namespace FuzzyCalc

namespace Stack

variable {p : Precision} {base level next : Stack} {token : Token} {x : Decimal}

/-! ### One push -/

/-- A number that comes to rest in a level does so on any bottom of it. -/
theorem settle_onBase (hb : AtBase base) (h : settle p level x = .ok next) :
    settle p (level ++ base) x = .ok (next ++ base) := by
  -- The way down is the same up to the bottom of the level, which is an end on any base as well.
  induction settles_of_settle h with
  | atBase inner hnext =>
    rw [hnext]
    cases inner with
    | bottom => exact settle_atBase hb _
    | opened below => rfl
  | throughPrefix hy _ ih =>
    rw [settle_prefixOp, hy] at h
    rw [List.cons_append, settle_prefixOp, hy]
    exact ih h
  | throughBinary hy _ ih =>
    rw [settle_binaryOp, hy] at h
    rw [List.cons_append, List.cons_append, settle_binaryOp, hy]
    exact ih h

/-- What begins an operand in a level begins it on any bottom of the level. -/
theorem awaitOperand_onBase {s : Symbol} (hb : AtBase base)
    (h : awaitOperand level s = .ok next) :
    awaitOperand (level ++ base) s = .ok (next ++ base) := by
  unfold awaitOperand at h
  split at h
  · cases h
    exact awaitOperand_awaiting (.base hb) s
  · cases h
    rfl
  · cases h
    rfl
  · cases h
    rfl
  · cases h

/-- A token that a level takes is taken on any bottom of the level, and leaves the same on it. -/
theorem push_onBase (hb : AtBase base) (h : push p level token = .ok next) :
    push p (level ++ base) token = .ok (next ++ base) := by
  match token with
  | .number x => exact settle_onBase hb h
  | .symbol (.prefixOp op) => exact awaitOperand_onBase hb h
  | .symbol (.separator .opening) => exact awaitOperand_onBase hb h
  | .symbol (.binaryOp op) =>
    match level with
    | [] => cases h
    | .symbol s :: below => cases h
    | .number y :: below =>
      cases h
      rfl
  | .symbol (.postfixOp op) =>
    match level with
    | [] => cases h
    | .symbol s :: below => cases h
    | .number y :: below =>
      rw [push_postfixOp] at h
      obtain ⟨z, hz, h⟩ := bind_eq_ok.mp h
      rw [List.cons_append, push_postfixOp, hz]
      exact settle_onBase hb h
  | .symbol (.separator .closing) =>
    -- A parenthesis that is closed in a level was opened in it.
    rw [push] at h
    unfold close at h
    split at h
    · cases h
    · cases h
    · next y below => exact settle_onBase hb h
    · cases h
    · cases h

/-! ### A whole level -/

/-- Tokens that a level takes are taken on any bottom of the level, and leave the same on it. -/
theorem pushMany_onBase {tokens : List Token} (hb : AtBase base)
    (h : pushMany p level tokens = .ok next) :
    pushMany p (level ++ base) tokens = .ok (next ++ base) := by
  induction tokens generalizing level with
  | nil =>
    cases h
    rfl
  | cons token tokens ih =>
    rw [pushMany_cons] at h
    obtain ⟨middle, first, later⟩ := bind_eq_ok.mp h
    rw [pushMany_cons, push_onBase hb first]
    exact ih later

/-- Offers that try one push end alike: both tokens are taken and leave one stack, or both are
refused for one cause and leave each stack as it was, or both end halfway and leave one stack. -/
theorem offer_alike {stack other : Stack} {token' : Token}
    (h : push p stack token = push p other token') :
    (∃ next, stack.offer p (.token token) = (next, .taken) ∧
      other.offer p (.token token') = (next, .taken)) ∨
    (∃ cause, stack.offer p (.token token) = (stack, .refused cause) ∧
      other.offer p (.token token') = (other, .refused cause)) ∨
    ∃ rest, stack.offer p (.token token) = (rest, .faulted .missingOperand) ∧
      other.offer p (.token token') = (rest, .faulted .missingOperand) := by
  cases pushed : push p other token' with
  | ok next => exact .inl ⟨next, offer_of_push (h.trans pushed), offer_of_push pushed⟩
  | error refusal =>
    cases refusal with
    | fault cause =>
      exact .inr (.inl ⟨cause, offer_of_fault (h.trans pushed), offer_of_fault pushed⟩)
    | breach rest =>
      exact .inr (.inr ⟨rest, offer_of_breach (h.trans pushed), offer_of_breach pushed⟩)

/-- A level in parentheses is apart from what lies below it, whether that could come about or not.
Tokens that the empty stack takes are taken behind an opening parenthesis on any stack, and leave
the same there. If they come down to a number, then closing the parenthesis does to the stack below
what pushing the number there does: both are taken and leave one stack, or both are refused for one
cause, or both end in one fault. -/
theorem level_isolated (p : Precision) (below level : Stack) (tokens : List Token)
    (h : pushMany p [] tokens = .ok level) :
    pushMany p (.opening :: below) tokens = .ok (level ++ .opening :: below) ∧
      ∀ x, level = [.number x] →
        let closed := (level ++ .opening :: below).offer p (.token .closing)
        let given := below.offer p (.token (.number x))
        (∃ next, closed = (next, .taken) ∧ given = (next, .taken)) ∨
        (∃ cause, closed = (level ++ .opening :: below, .refused cause) ∧
          given = (below, .refused cause)) ∨
        ∃ rest, closed = (rest, .faulted .missingOperand) ∧
          given = (rest, .faulted .missingOperand) := by
  refine ⟨pushMany_onBase (.opened below) h, ?_⟩
  rintro x rfl
  exact offer_alike rfl

/-- The sum `1+1` comes down to two also in parentheses behind a product that lacks its left
operand; and when these are closed there, that is a fault, as when two is pushed there. -/
theorem level_isolated_sum :
    let tokens := [.number .one, .symbol (.binaryOp .sum), .number .one]
    let level : Stack := [.number (.ofNat 2)]
    let below : Stack := [.symbol (.binaryOp .product)]
    pushMany .standard [] tokens = .ok level ∧
      pushMany .standard (.opening :: below) tokens = .ok (level ++ .opening :: below) ∧
      (level ++ .opening :: below).offer .standard (.token .closing) =
        ([], .faulted .missingOperand) := by
  intro tokens level below
  have taken : pushMany .standard [] tokens = .ok level := rfl
  obtain ⟨inside, ends⟩ := level_isolated .standard below level tokens taken
  refine ⟨taken, inside, ?_⟩
  have given : below.offer .standard (.token (.number (.ofNat 2))) =
      ([], .faulted .missingOperand) := rfl
  rcases ends (.ofNat 2) rfl with ⟨next, -, other⟩ | ⟨cause, -, other⟩ | ⟨rest, closed, other⟩
  · cases congrArg Prod.snd (given.symm.trans other)
  · cases congrArg Prod.snd (given.symm.trans other)
  · rw [closed, ← other, given]

end Stack

end FuzzyCalc
