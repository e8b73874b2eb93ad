import FuzzyCalc.Offer
import FuzzyCalc.Proofs.Pushing

/-!
# The shape of a stack

Every token on a stack lies on something that it can lie on: a number at the bottom of a level, a
binary operator on its left operand, and whatever begins an operand where one is awaited. Pushing
keeps this shape, also when an operator fails halfway, and every stack of this shape comes about.
-/

namespace FuzzyCalc

namespace Stack

/-- The bottom of a level: that of the stack, or an opening parenthesis. -/
inductive AtBase : Stack → Prop
  /-- Nothing is on the stack. -/
  | bottom : AtBase []
  /-- A parenthesis has just been opened. -/
  | opened (below : Stack) : AtBase (.opening :: below)

/-- An operand may begin: at the bottom of a level, or behind an operator that waits for one. -/
inductive Awaiting : Stack → Prop
  /-- Nothing is in the level yet. -/
  | base {stack : Stack} (h : AtBase stack) : Awaiting stack
  /-- A prefix operator waits. -/
  | prefixOp (op : PrefixOp) (below : Stack) : Awaiting (.symbol (.prefixOp op) :: below)
  /-- A binary operator waits. -/
  | binaryOp (op : BinaryOp) (below : Stack) : Awaiting (.symbol (.binaryOp op) :: below)

end Stack

/-- Whether a token at rest may lie directly on what is below it. -/
def Token.MayLieOn (below : Stack) : Token → Prop
  | .number _ => below.AtBase
  | .symbol (.binaryOp _) => ∃ x rest, below = .number x :: rest
  | .symbol (.prefixOp _) | .symbol (.separator .opening) => below.Awaiting
  | .symbol (.separator .closing) | .symbol (.postfixOp _) => False

namespace Stack

variable {p : Precision} {stack below rest next : Stack} {token : Token} {x : Decimal}

/-- Every token lies on something that it may lie on. -/
def WellShaped : Stack → Prop
  | [] => True
  | token :: below => token.MayLieOn below ∧ WellShaped below

/-- What lies below in a well-shaped stack is well-shaped. -/
theorem WellShaped.of_append {above : Stack} (h : WellShaped (above ++ below)) :
    WellShaped below := by
  induction above with
  | nil => exact h
  | cons token above ih => exact ih h.2

/-- What lies directly on a number is a binary operator. -/
theorem exists_binaryOp_of_on_number (h : WellShaped (token :: .number x :: below)) :
    ∃ op, token = .symbol (.binaryOp op) := by
  have onNumber : ¬ Awaiting (.number x :: below) := by
    rintro (h | _ | _)
    cases h
  match token, h.1 with
  | .number _, h => exact absurd (.base h) onNumber
  | .symbol (.binaryOp op), _ => exact ⟨op, rfl⟩
  | .symbol (.prefixOp _), h => exact absurd h onNumber
  | .symbol (.separator .opening), h => exact absurd h onNumber

/-- A well-shaped stack awaits an operand, or has a number on top. -/
theorem WellShaped.awaiting_or_number (h : WellShaped stack) :
    Awaiting stack ∨ ∃ x below, stack = .number x :: below := by
  match stack, h with
  | [], _ => exact .inl (.base .bottom)
  | .number x :: below, _ => exact .inr ⟨x, below, rfl⟩
  | .symbol (.binaryOp op) :: below, _ => exact .inl (.binaryOp op below)
  | .symbol (.prefixOp op) :: below, _ => exact .inl (.prefixOp op below)
  | .symbol (.separator .opening) :: below, _ => exact .inl (.base (.opened below))

/-! ### One push -/

/-- A number stays at the bottom of a level. -/
theorem settle_atBase (h : AtBase stack) (x : Decimal) :
    settle p stack x = .ok (.number x :: stack) := by
  cases h with
  | bottom => rfl
  | opened below => rfl

/-- How a number comes to rest: through each operator that waits for it, down to the bottom of a
level. -/
inductive Settles (p : Precision) (final : Stack) : Stack → Decimal → Prop
  /-- Nothing waits for it. -/
  | atBase {base : Stack} {x : Decimal} (h : AtBase base) (hn : final = .number x :: base) :
    Settles p final base x
  /-- A prefix operator waits. -/
  | throughPrefix {op : PrefixOp} {below : Stack} {x y : Decimal} (hy : op.apply p x = .ok y)
    (h : Settles p final below y) : Settles p final (.symbol (.prefixOp op) :: below) x
  /-- A binary operator waits. -/
  | throughBinary {op : BinaryOp} {left : Decimal} {below : Stack} {x y : Decimal}
    (hy : op.apply p left x = .ok y) (h : Settles p final below y) :
    Settles p final (.symbol (.binaryOp op) :: .number left :: below) x

/-- A number that is taken comes to rest. -/
theorem settles_of_settle (h : settle p stack x = .ok next) : Settles p next stack x := by
  induction stack, x using settle.induct p with
  | case1 x => exact .atBase .bottom (Except.ok.inj h).symm
  | case2 below x => exact .atBase (.opened below) (Except.ok.inj h).symm
  | case3 op below x y hy ih =>
    rw [settle_prefixOp, hy] at h
    exact .throughPrefix hy (ih h)
  | case4 op below x cause hcause =>
    rw [settle_prefixOp, hcause] at h
    cases h
  | case5 op left below x y hy ih =>
    rw [settle_binaryOp, hy] at h
    exact .throughBinary hy (ih h)
  | case6 op left below x cause hcause =>
    rw [settle_binaryOp, hcause] at h
    cases h
  | case7 op below x noLeft =>
    rw [settle] at h
    · cases h
    · exact noLeft
  | case8 prior below x noOpening noPrefix noLeft noBinary =>
    rw [settle] at h
    · cases h
    · exact noOpening
    · exact noPrefix
    · exact noLeft
    · exact noBinary

/-- Where an operand is awaited, a number comes to rest at the bottom of a level, unless an operator
on the way fails. -/
theorem settle_awaiting (hs : WellShaped stack) (ha : Awaiting stack) (x : Decimal) :
    (∃ y base, AtBase base ∧ WellShaped base ∧ settle p stack x = .ok (.number y :: base)) ∨
      ∃ cause, settle p stack x = .error (.fault cause) ∧ cause.kind = .domain := by
  induction stack generalizing x with
  | nil => exact .inl ⟨x, [], .bottom, trivial, rfl⟩
  | cons top below ih =>
    cases ha with
    | base hbase => exact .inl ⟨x, top :: below, hbase, hs, settle_atBase hbase x⟩
    | prefixOp op =>
      rw [settle_prefixOp]
      cases hy : op.apply p x with
      | ok y => exact ih hs.2 hs.1 y
      | error cause => exact .inr ⟨cause, rfl, PrefixOp.kind_of_apply hy⟩
    | binaryOp op =>
      obtain ⟨⟨left, base, rfl⟩, hleft⟩ := hs
      rw [settle_binaryOp]
      cases hy : op.apply p left x with
      | ok y => exact .inl ⟨y, base, hleft.1, hleft.2, settle_atBase hleft.1 y⟩
      | error cause => exact .inr ⟨cause, rfl, BinaryOp.kind_of_apply hy⟩

/-- Whether a token can follow what is on a well-shaped stack, by its kind and the kinds on top. -/
def Fits (stack : Stack) : Token → Prop
  | .number _ | .symbol (.prefixOp _) | .symbol (.separator .opening) => Awaiting stack
  | .symbol (.binaryOp _) | .symbol (.postfixOp _) => ∃ x below, stack = .number x :: below
  | .symbol (.separator .closing) => ∃ x below, stack = .number x :: .opening :: below

/-- What begins an operand is taken where an operand is awaited. -/
theorem awaitOperand_awaiting (ha : Awaiting stack) (s : Symbol) :
    awaitOperand stack s = .ok (.symbol s :: stack) := by
  cases ha with
  | base h =>
    cases h with
    | bottom => rfl
    | opened below => rfl
  | prefixOp op below => rfl
  | binaryOp op below => rfl

/-- A token that fits is taken, unless an operator fails, and the stack stays well-shaped. -/
theorem push_fits (hs : WellShaped stack) (hf : Fits stack token) :
    (∃ next, push p stack token = .ok next ∧ WellShaped next) ∨
      ∃ cause, push p stack token = .error (.fault cause) ∧ cause.kind = .domain := by
  have settled {rest : Stack} (hrest : WellShaped rest) (ha : Awaiting rest) (x : Decimal) :
      (∃ next, settle p rest x = .ok next ∧ WellShaped next) ∨
        ∃ cause, settle p rest x = .error (.fault cause) ∧ cause.kind = .domain := by
    rcases settle_awaiting (p := p) hrest ha x with ⟨y, base, hbase, hshape, h⟩ | h
    · exact .inl ⟨_, h, hbase, hshape⟩
    · exact .inr h
  match token, hf with
  | .number x, ha => exact settled hs ha x
  | .symbol (.prefixOp op), ha => exact .inl ⟨_, awaitOperand_awaiting ha _, ha, hs⟩
  | .symbol (.separator .opening), ha => exact .inl ⟨_, awaitOperand_awaiting ha _, ha, hs⟩
  | .symbol (.binaryOp op), htop =>
    obtain ⟨x, below, rfl⟩ := htop
    exact .inl ⟨_, push_binaryOp op x below, ⟨x, below, rfl⟩, hs⟩
  | .symbol (.postfixOp op), htop =>
    obtain ⟨x, below, rfl⟩ := htop
    rw [push_postfixOp]
    cases hy : op.apply p x with
    | ok y => exact settled hs.2 (.base hs.1) y
    | error cause => exact .inr ⟨cause, rfl, PostfixOp.kind_of_apply hy⟩
  | .symbol (.separator .closing), htop =>
    obtain ⟨x, below, rfl⟩ := htop
    exact settled hs.2.2 hs.2.1 x

/-- A token that does not fit is refused for what is on top of the stack. A number is refused as it
came, and a closing parenthesis never for a number that lies on something else than an opening
one. -/
theorem push_not_fits (hs : WellShaped stack) (hf : ¬ Fits stack token) :
    ∃ cause, push p stack token = .error (.fault cause) ∧ cause.kind = .grammar ∧
      (∀ prior x, cause ≠ .closingAcross prior x) ∧
      ∀ x prior, cause = .numberAfter x prior →
        token = .number x ∧ ∃ y below, prior = .number y ∧ stack = .number y :: below := by
  -- Either the top is no number where the token needs one, or it is one where an operand begins.
  match token with
  | .number x =>
    rcases hs.awaiting_or_number with ha | ⟨y, below, rfl⟩
    · exact absurd ha hf
    · refine ⟨.numberAfter x (.number y), rfl, rfl, by simp, ?_⟩
      intro x' prior heq
      cases heq
      exact ⟨rfl, y, below, rfl, rfl⟩
  | .symbol (.prefixOp op) =>
    rcases hs.awaiting_or_number with ha | ⟨y, below, rfl⟩
    · exact absurd ha hf
    · exact ⟨_, rfl, rfl, by simp, by simp⟩
  | .symbol (.separator .opening) =>
    rcases hs.awaiting_or_number with ha | ⟨y, below, rfl⟩
    · exact absurd ha hf
    · exact ⟨_, rfl, rfl, by simp, by simp⟩
  | .symbol (.binaryOp op) =>
    match stack with
    | [] => exact ⟨_, rfl, rfl, by simp, by simp⟩
    | .number y :: below => exact absurd ⟨y, below, rfl⟩ hf
    | .symbol s :: below => exact ⟨_, rfl, rfl, by simp, by simp⟩
  | .symbol (.postfixOp op) =>
    match stack with
    | [] => exact ⟨_, rfl, rfl, by simp, by simp⟩
    | .number y :: below => exact absurd ⟨y, below, rfl⟩ hf
    | .symbol s :: below => exact ⟨_, rfl, rfl, by simp, by simp⟩
  | .symbol (.separator .closing) =>
    match stack, hs with
    | [], _ => exact ⟨_, rfl, rfl, by simp, by simp⟩
    | [.number y], _ => exact ⟨_, rfl, rfl, by simp, by simp⟩
    | .symbol s :: below, _ => exact ⟨_, rfl, rfl, by simp, by simp⟩
    | .number y :: prior :: below, hs =>
      -- A number above the bottom lies on an opening parenthesis.
      cases hs.1
      exact absurd ⟨y, below, rfl⟩ hf

/-- What a push leaves is well-shaped. -/
theorem WellShaped.push (hs : WellShaped stack) (h : push p stack token = .ok next) :
    WellShaped next := by
  by_cases hf : Fits stack token
  · rcases push_fits (p := p) hs hf with ⟨taken, ok, shape⟩ | ⟨cause, refused, -⟩
    · cases h.symm.trans ok
      exact shape
    · cases h.symm.trans refused
  · obtain ⟨cause, refused, -⟩ := push_not_fits (p := p) hs hf
    cases h.symm.trans refused

/-- A refusal by a well-shaped stack is a complaint about the token, never a breach. -/
theorem WellShaped.exists_fault (hs : WellShaped stack) {refusal : Refusal}
    (h : Stack.push p stack token = .error refusal) : ∃ cause, refusal = .fault cause := by
  by_cases hf : Fits stack token
  · rcases push_fits (p := p) hs hf with ⟨taken, ok, -⟩ | ⟨cause, refused, -⟩
    · cases h.symm.trans ok
    · exact ⟨cause, Except.error.inj (h.symm.trans refused)⟩
  · obtain ⟨cause, refused, -⟩ := push_not_fits (p := p) hs hf
    exact ⟨cause, Except.error.inj (h.symm.trans refused)⟩

/-- A well-shaped stack refuses a token for its place, or because an operator fails. -/
theorem WellShaped.kind_of_fault (hs : WellShaped stack) {cause : Cause}
    (h : Stack.push p stack token = .error (.fault cause)) :
    cause.kind = .grammar ∨ cause.kind = .domain := by
  by_cases hf : Fits stack token
  · rcases push_fits (p := p) hs hf with ⟨taken, ok, -⟩ | ⟨other, refused, hkind⟩
    · cases h.symm.trans ok
    · cases h.symm.trans refused
      exact .inr hkind
  · obtain ⟨other, refused, hkind, -⟩ := push_not_fits (p := p) hs hf
    cases h.symm.trans refused
    exact .inl hkind

/-! ### Many pushes -/

/-- What many pushes leave is well-shaped. -/
theorem WellShaped.pushMany {tokens : List Token} (hs : WellShaped stack)
    (h : Stack.pushMany p stack tokens = .ok next) : WellShaped next := by
  induction tokens generalizing stack with
  | nil =>
    cases h
    exact hs
  | cons token rest ih =>
    rw [pushMany_cons] at h
    obtain ⟨middle, first, later⟩ := bind_eq_ok.mp h
    exact ih (hs.push first) later

/-- No breach comes of many pushes. -/
theorem WellShaped.pushMany_ne_breach {tokens : List Token} (hs : WellShaped stack) :
    Stack.pushMany p stack tokens ≠ .error (.breach rest) := by
  intro h
  obtain ⟨before, token, after, middle, -, taken, refused⟩ := exists_refused h
  obtain ⟨cause, hcause⟩ := (hs.pushMany taken).exists_fault refused
  cases hcause

/-- A well-shaped stack comes about by pushing its own tokens in order. -/
theorem WellShaped.pushMany_residue (hs : WellShaped stack) :
    Stack.pushMany p [] stack.residue = .ok stack := by
  induction stack with
  | nil => rfl
  | cons token below ih =>
    rw [residue, List.reverse_cons, pushMany_concat_eq_ok]
    refine ⟨below, ih hs.2, ?_⟩
    match token, hs.1 with
    | .number x, hbase => exact settle_atBase hbase x
    | .symbol (.prefixOp op), ha => exact awaitOperand_awaiting ha _
    | .symbol (.separator .opening), ha => exact awaitOperand_awaiting ha _
    | .symbol (.binaryOp op), hleft =>
      obtain ⟨x, rest, rfl⟩ := hleft
      exact push_binaryOp op x rest

end Stack

end FuzzyCalc
