import FuzzyCalc.Proofs.Shape

/-!
# The stacks that come about

A caller starts with the empty stack, offers one token after the other, and goes on with the
restored stack where one is refused. The stacks that come about in this way are exactly the
well-shaped ones. On these a token is taken or refused, and the refusals that only a misshapen stack
could bring about never happen.
-/

namespace FuzzyCalc

namespace Stack

variable {p : Precision} {stack below rest next : Stack} {token : Token} {x : Decimal}

/-- The stacks that come about by offering tokens, each at any precision. -/
inductive Reachable : Stack → Prop
  /-- The stack of the start. -/
  | empty : Reachable []
  /-- The stack that an offer leaves, whether the token is taken or refused. -/
  | offer {stack : Stack} (p : Precision) (token : Token) (h : Reachable stack) :
    Reachable (stack.offer p (.token token)).1

/-- What is left of a stack, and the number on its way down, at some turn of pushing a token: the
number pushed or set free, and then the result of each operator that waited for it. -/
inductive Settling (p : Precision) : Stack → Token → Stack → Decimal → Prop
  /-- A number has been pushed. -/
  | number (stack : Stack) (x : Decimal) : Settling p stack (.number x) stack x
  /-- A postfix operator has been applied. -/
  | postfixOp {op : PostfixOp} {x y : Decimal} (below : Stack) (h : op.apply p x = .ok y) :
    Settling p (.number x :: below) (.symbol (.postfixOp op)) below y
  /-- A parenthesis has been closed. -/
  | closing (x : Decimal) (below : Stack) :
    Settling p (.number x :: .opening :: below) .closing below x
  /-- A prefix operator that waited has been applied. -/
  | throughPrefix {stack below : Stack} {token : Token} {op : PrefixOp} {x y : Decimal}
    (h : Settling p stack token (.symbol (.prefixOp op) :: below) x) (hy : op.apply p x = .ok y) :
    Settling p stack token below y
  /-- A binary operator that waited has been applied. -/
  | throughBinary {stack below : Stack} {token : Token} {op : BinaryOp} {left x y : Decimal}
    (h : Settling p stack token (.symbol (.binaryOp op) :: .number left :: below) x)
    (hy : op.apply p left x = .ok y) : Settling p stack token below y

/-- The turns of a push lead to its result. -/
theorem Settling.push_eq (h : Settling p stack token rest x) :
    push p stack token = settle p rest x := by
  induction h with
  | number stack x => rfl
  | postfixOp below h =>
    rw [push_postfixOp, h]
    rfl
  | closing x below => rfl
  | throughPrefix _ hy ih =>
    rw [ih, settle_prefixOp, hy]
    rfl
  | throughBinary _ hy ih =>
    rw [ih, settle_binaryOp, hy]
    rfl

/-- A number that comes to rest does so after some turn. -/
theorem Settling.exists_rest (h : Settling p stack token rest x)
    (hn : settle p rest x = .ok next) :
    ∃ base y, Settling p stack token base y ∧ next = .number y :: base := by
  have turns := settles_of_settle hn
  clear hn
  induction turns with
  | atBase _ hbase => exact ⟨_, _, h, hbase⟩
  | throughPrefix hy _ ih => exact ih (h.throughPrefix hy)
  | throughBinary hy _ ih => exact ih (h.throughBinary hy)

/-- A token that is taken is a symbol on top, or makes a number come to rest after some turn. -/
theorem push_cases (h : push p stack token = .ok next) :
    (∃ s, token = .symbol s ∧ next = token :: stack) ∨
      ∃ base y, Settling p stack token base y ∧ next = .number y :: base := by
  have awaited {s : Symbol} (h : awaitOperand stack s = .ok next) : next = .symbol s :: stack := by
    unfold awaitOperand at h
    split at h
    all_goals cases h
    all_goals rfl
  match token with
  | .number x => exact .inr ((Settling.number stack x).exists_rest h)
  | .symbol (.prefixOp op) => exact .inl ⟨_, rfl, awaited h⟩
  | .symbol (.separator .opening) => exact .inl ⟨_, rfl, awaited h⟩
  | .symbol (.binaryOp op) =>
    match stack with
    | [] => cases h
    | .symbol s :: below => cases h
    | .number x :: below =>
      cases h
      exact .inl ⟨_, rfl, rfl⟩
  | .symbol (.postfixOp op) =>
    match stack with
    | [] => cases h
    | .symbol s :: below => cases h
    | .number x :: below =>
      rw [push_postfixOp] at h
      obtain ⟨y, hy, h⟩ := bind_eq_ok.mp h
      exact .inr ((Settling.postfixOp below (mapError_eq_ok.mp hy)).exists_rest h)
  | .symbol (.separator .closing) =>
    rw [push] at h
    unfold close at h
    split at h
    · cases h
    · cases h
    · next x below => exact .inr ((Settling.closing x below).exists_rest h)
    · cases h
    · cases h

/-- On a well-shaped stack each turn leaves a well-shaped stack that awaits an operand, except that
a number may have been pushed where none is awaited. -/
theorem Settling.wellShaped (h : Settling p stack token rest x) (hs : WellShaped stack) :
    WellShaped rest ∧ (Awaiting rest ∨ rest = stack ∧ token = .number x) := by
  induction h with
  | number stack x => exact ⟨hs, .inr ⟨rfl, rfl⟩⟩
  | postfixOp below h => exact ⟨hs.2, .inl (.base hs.1)⟩
  | closing x below => exact ⟨hs.2.2, .inl hs.2.1⟩
  | throughPrefix _ _ ih =>
    obtain ⟨⟨ha, hrest⟩, -⟩ := ih hs
    exact ⟨hrest, .inl ha⟩
  | throughBinary _ _ ih =>
    obtain ⟨⟨-, hbase, hrest⟩, -⟩ := ih hs
    exact ⟨hrest, .inl (.base hbase)⟩

/-- A taken token is an offer that succeeds. -/
theorem offer_of_push (h : push p stack token = .ok next) :
    stack.offer p (.token token) = (next, .taken) := by
  rw [offer, h]

/-- A refused token leaves the stack as it was. -/
theorem offer_of_fault {cause : Cause} (h : push p stack token = .error (.fault cause)) :
    stack.offer p (.token token) = (stack, .refused cause) := by
  rw [offer, h]

/-- A breach leaves the stack as far as it has been emptied. -/
theorem offer_of_breach (h : push p stack token = .error (.breach rest)) :
    stack.offer p (.token token) = (rest, .faulted .missingOperand) := by
  rw [offer, h]

/-- An offer to a well-shaped stack leaves a well-shaped stack, and is taken or refused. -/
theorem WellShaped.offer (hs : WellShaped stack) :
    WellShaped (stack.offer p (.token token)).1 ∧
      ∀ fault, (stack.offer p (.token token)).2 ≠ .faulted fault := by
  cases hpush : Stack.push p stack token with
  | ok next =>
    rw [offer_of_push hpush]
    exact ⟨hs.push hpush, by simp⟩
  | error refusal =>
    obtain ⟨cause, rfl⟩ := hs.exists_fault hpush
    rw [offer_of_fault hpush]
    exact ⟨hs, by simp⟩

/-- Every stack that comes about is well-shaped. -/
theorem Reachable.wellShaped (h : Reachable stack) : WellShaped stack := by
  induction h with
  | empty => trivial
  | offer p token _ ih => exact ih.offer.1

/-- Tokens that are taken one after the other lead to a stack that comes about. -/
theorem Reachable.pushMany {tokens : List Token} (hr : Reachable stack)
    (h : Stack.pushMany p stack tokens = .ok next) : Reachable next := by
  induction tokens generalizing stack with
  | nil =>
    cases h
    exact hr
  | cons token tokens ih =>
    rw [pushMany_cons] at h
    obtain ⟨middle, first, later⟩ := bind_eq_ok.mp h
    refine ih ?_ later
    have step := hr.offer p token
    rwa [offer_of_push first] at step

/-- A refusal on a well-shaped stack names a number only as it was pushed, onto a number, and never
names a number under a closing parenthesis that lies on something else than an opening one. -/
theorem WellShaped.refusal (hs : WellShaped stack) {cause : Cause}
    (h : Stack.push p stack token = .error (.fault cause)) :
    (∀ prior x, cause ≠ .closingAcross prior x) ∧
      ∀ x prior, cause = .numberAfter x prior →
        token = .number x ∧ ∃ y below, prior = .number y ∧ stack = .number y :: below := by
  by_cases hf : Fits stack token
  · rcases push_fits (p := p) hs hf with ⟨taken, ok, -⟩ | ⟨other, refused, hkind⟩
    · cases h.symm.trans ok
    · cases h.symm.trans refused
      constructor
      · rintro prior x rfl
        cases hkind
      · rintro x prior rfl
        cases hkind
  · obtain ⟨other, refused, -, hacross, hnumber⟩ := push_not_fits (p := p) hs hf
    cases h.symm.trans refused
    exact ⟨hacross, hnumber⟩

/-- The stacks that come about are exactly the well-shaped ones, and what lies on a number there is
a binary operator. Offering a token to such a stack never ends in an internal fault; no closing
parenthesis is refused for a number that lies on something else than an opening one; and a number is
refused only as the very number that was pushed, for the very number on top, at the first turn: a
push comes out as each of its turns goes on, and at every later turn an operand is awaited. A
well-shaped stack comes about, at every precision, by pushing its own tokens in order. -/
theorem reachable_iff_wellShaped :
    (∀ stack, Reachable stack ↔ WellShaped stack) ∧
    (∀ stack above token below, Reachable stack → stack = above ++ token :: below →
      token.MayLieOn below ∧
      ∀ x rest, below = .number x :: rest → ∃ op, token = .symbol (.binaryOp op)) ∧
    (∀ p stack token, Reachable stack →
      (∀ fault, (stack.offer p (.token token)).2 ≠ .faulted fault) ∧
      (∀ prior x, push p stack token ≠ .error (.fault (.closingAcross prior x))) ∧
      (∀ x prior, push p stack token = .error (.fault (.numberAfter x prior)) →
        token = .number x ∧ ∃ y below, prior = .number y ∧ stack = .number y :: below) ∧
      ∀ rest x, Settling p stack token rest x →
        push p stack token = settle p rest x ∧
        (Awaiting rest ∨ rest = stack ∧ token = .number x)) ∧
    ∀ p stack, WellShaped stack → pushMany p [] stack.residue = .ok stack := by
  refine ⟨?_, ?_, ?_, fun p stack hs ↦ hs.pushMany_residue⟩
  · intro stack
    constructor
    · exact Reachable.wellShaped
    · intro hs
      exact Reachable.empty.pushMany (hs.pushMany_residue (p := .standard))
  · rintro stack above token below hr rfl
    have hs := WellShaped.of_append hr.wellShaped
    refine ⟨hs.1, ?_⟩
    rintro x rest rfl
    exact exists_binaryOp_of_on_number hs
  · intro p stack token hr
    have hs := hr.wellShaped
    refine ⟨hs.offer.2, ?_, ?_, ?_⟩
    · intro prior x h
      exact (hs.refusal h).1 prior x rfl
    · intro x prior h
      exact (hs.refusal h).2 x prior rfl
    · intro rest x h
      exact ⟨h.push_eq, (h.wellShaped hs).2⟩

/-- What waits after `1 - ~ (` comes about, and whatever is offered to it is taken or refused. -/
theorem reachable_behind_opening :
    Reachable [.opening, .symbol (.prefixOp .complement), .symbol (.binaryOp .difference),
      .number .one] ∧
    ∀ p token fault,
      (offer p [.opening, .symbol (.prefixOp .complement), .symbol (.binaryOp .difference),
        .number .one] (.token token)).2 ≠ .faulted fault :=
  have shape : WellShaped [.opening, .symbol (.prefixOp .complement),
      .symbol (.binaryOp .difference), .number .one] :=
    ⟨.prefixOp _ _, .binaryOp _ _, ⟨_, _, rfl⟩, .bottom, trivial⟩
  have reachable := (reachable_iff_wellShaped.1 _).mpr shape
  ⟨reachable, fun p token ↦ (reachable_iff_wellShaped.2.2.1 p _ token reachable).1⟩

end Stack

end FuzzyCalc
