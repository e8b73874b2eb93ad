import FuzzyCalc.Grammar
import FuzzyCalc.Proofs.Shape

/-!
# Pushing evaluates

A stack has no tree, yet pushing the tokens of a level evaluates the level. In one direction this
follows the tree: an operand comes down to its value wherever an operand is awaited, a level at the
bottom of one. In the other it follows the pushes: what is on the stack is a derivation so far, with
every number the value of a level that has been read.
-/

namespace FuzzyCalc

open Stack

/-! ### From the tree to the stack -/

mutual

/-- Where an operand is awaited, the tokens of one do what its value does. -/
theorem Operand.pushMany_tokens (p : Precision) (operand : Operand) {stack : Stack}
    (ha : Awaiting stack) :
    pushMany p stack operand.tokens = refusing (operand.eval p) >>= settle p stack := by
  cases operand with
  | number x => exact pushMany_singleton stack (.number x)
  | group level =>
    have opened : push p stack .opening = .ok (.opening :: stack) := awaitOperand_awaiting ha _
    rw [Operand.tokens, pushMany_cons, opened, Operand.eval]
    change pushMany p (.opening :: stack) (level.tokens ++ [.closing]) = _
    rw [pushMany_append, Level.pushMany_tokens p level (.opened stack)]
    cases level.eval p with
    | ok x => exact pushMany_singleton _ .closing
    | error cause => rfl
  | prefixed op operand =>
    have waits : push p stack (.symbol (.prefixOp op)) = .ok (.symbol (.prefixOp op) :: stack) :=
      awaitOperand_awaiting ha _
    rw [Operand.tokens, pushMany_cons, waits, Operand.eval, refusing_bind]
    change pushMany p (.symbol (.prefixOp op) :: stack) operand.tokens = _
    rw [Operand.pushMany_tokens p operand (.prefixOp op stack), bind_assoc]
    congr 1
    funext x
    exact settle_prefixOp op stack x

/-- At the bottom of a level, the tokens of one leave its value there. -/
theorem Level.pushMany_tokens (p : Precision) (level : Level) {stack : Stack}
    (hb : AtBase stack) :
    pushMany p stack level.tokens =
      refusing (level.eval p) >>= fun x ↦ .ok (.number x :: stack) := by
  cases level with
  | single operand =>
    rw [Level.tokens, Level.eval, Operand.pushMany_tokens p operand (.base hb)]
    congr 1
    funext x
    exact settle_atBase hb x
  | binary left op right =>
    rw [Level.tokens, pushMany_append, Level.pushMany_tokens p left hb, Level.eval, refusing_bind,
      bind_assoc, bind_assoc]
    congr 1
    funext x
    change pushMany p (.number x :: stack) (.symbol (.binaryOp op) :: right.tokens) = _
    rw [pushMany_cons, push_binaryOp]
    change pushMany p (.symbol (.binaryOp op) :: .number x :: stack) right.tokens = _
    rw [Operand.pushMany_tokens p right (.binaryOp op _), refusing_bind, bind_assoc]
    congr 1
    funext y
    rw [settle_binaryOp]
    congr 1
    funext z
    exact settle_atBase hb z
  | postfixed level op =>
    rw [Level.tokens, pushMany_append, Level.pushMany_tokens p level hb, Level.eval, refusing_bind,
      bind_assoc, bind_assoc]
    congr 1
    funext x
    change pushMany p (.number x :: stack) [.symbol (.postfixOp op)] = _
    rw [pushMany_singleton, push_postfixOp]
    congr 1
    funext y
    exact settle_atBase hb y

end

/-! ### From the stack to the tree -/

/-- The tokens are the beginning of a level, and the stack is what has come of it: operators that
wait for an operand, open parentheses, and the values of the levels that have been read. -/
inductive PartlyRead (p : Precision) : List Token → Stack → Prop
  /-- Nothing has been read. -/
  | start : PartlyRead p [] []
  /-- A parenthesis has been opened. -/
  | opening {tokens : List Token} {stack : Stack} (h : PartlyRead p tokens stack)
    (ha : Awaiting stack) : PartlyRead p (tokens ++ [.opening]) (.opening :: stack)
  /-- A prefix operator has been read. -/
  | prefixOp {tokens : List Token} {stack : Stack} (op : PrefixOp) (h : PartlyRead p tokens stack)
    (ha : Awaiting stack) :
    PartlyRead p (tokens ++ [.symbol (.prefixOp op)]) (.symbol (.prefixOp op) :: stack)
  /-- A level has been read, as far as it goes. -/
  | level {tokens : List Token} {stack : Stack} {x : Decimal} (level : Level)
    (h : PartlyRead p tokens stack) (hb : AtBase stack) (hx : level.eval p = .ok x) :
    PartlyRead p (tokens ++ level.tokens) (.number x :: stack)
  /-- A binary operator has been read behind its left operand. -/
  | binaryOp {tokens : List Token} {stack : Stack} {x : Decimal} (op : BinaryOp)
    (h : PartlyRead p tokens (.number x :: stack)) :
    PartlyRead p (tokens ++ [.symbol (.binaryOp op)]) (.symbol (.binaryOp op) :: .number x :: stack)

namespace PartlyRead

variable {p : Precision} {tokens : List Token} {stack next : Stack}

/-- The stack of a derivation so far is well-shaped. -/
theorem wellShaped (h : PartlyRead p tokens stack) : WellShaped stack := by
  induction h with
  | start => trivial
  | opening _ ha ih => exact ⟨ha, ih⟩
  | prefixOp _ _ ha ih => exact ⟨ha, ih⟩
  | level _ _ hb _ ih => exact ⟨hb, ih⟩
  | binaryOp _ _ ih => exact ⟨⟨_, _, rfl⟩, ih⟩

/-- An operand whose value has come to rest has been read. -/
theorem settle (h : PartlyRead p tokens stack) (ha : Awaiting stack) (operand : Operand)
    {x : Decimal} (hx : operand.eval p = .ok x) (hn : Stack.settle p stack x = .ok next) :
    PartlyRead p (tokens ++ operand.tokens) next := by
  induction h generalizing operand x with
  | start =>
    cases hn
    exact .level (.single operand) .start .bottom hx
  | opening h hbelow =>
    cases hn
    exact .level (.single operand) (.opening h hbelow) (.opened _) hx
  | prefixOp op h hbelow ih =>
    rw [settle_prefixOp] at hn
    obtain ⟨y, hy, hn⟩ := bind_eq_ok.mp hn
    have value : (Operand.prefixed op operand).eval p = .ok y := by
      rw [Operand.eval, hx]
      exact mapError_eq_ok.mp hy
    rw [List.append_assoc]
    exact ih hbelow (.prefixed op operand) value hn
  | level level h hb hx =>
    rcases ha with hb | _ | _
    cases hb
  | binaryOp op h _ =>
    cases h with
    | level left hbelow hb hleft =>
      rw [settle_binaryOp] at hn
      obtain ⟨y, hy, hn⟩ := bind_eq_ok.mp hn
      rw [settle_atBase hb] at hn
      cases hn
      have value : (Level.binary left op operand).eval p = .ok y := by
        rw [Level.eval, hleft, hx]
        exact mapError_eq_ok.mp hy
      rw [List.append_assoc, List.append_assoc]
      exact .level (.binary left op operand) hbelow hb value

/-- A token that is taken has been read. -/
theorem push {token : Token} (h : PartlyRead p tokens stack)
    (hn : Stack.push p stack token = .ok next) : PartlyRead p (tokens ++ [token]) next := by
  have hs : WellShaped stack := h.wellShaped
  by_cases hf : Fits stack token
  · match token, hf with
    | .number x, ha => exact h.settle ha (.number x) rfl hn
    | .symbol (.prefixOp op), ha =>
      cases (awaitOperand_awaiting ha (.prefixOp op)).symm.trans hn
      exact .prefixOp op h ha
    | .symbol (.separator .opening), ha =>
      cases (awaitOperand_awaiting ha (.separator .opening)).symm.trans hn
      exact .opening h ha
    | .symbol (.binaryOp op), htop =>
      obtain ⟨x, below, rfl⟩ := htop
      cases hn
      exact .binaryOp op h
    | .symbol (.postfixOp op), htop =>
      obtain ⟨x, below, rfl⟩ := htop
      cases h with
      | level level hbelow hb hx =>
        rw [push_postfixOp] at hn
        obtain ⟨y, hy, hn⟩ := bind_eq_ok.mp hn
        rw [settle_atBase hb] at hn
        cases hn
        have value : (Level.postfixed level op).eval p = .ok y := by
          rw [Level.eval, hx]
          exact mapError_eq_ok.mp hy
        rw [List.append_assoc]
        exact .level (.postfixed level op) hbelow hb value
    | .symbol (.separator .closing), htop =>
      obtain ⟨x, below, rfl⟩ := htop
      cases h with
      | level level hopened hb hx =>
        cases hopened with
        | opening hbelow ha =>
          rw [List.append_assoc, List.append_assoc]
          exact hbelow.settle ha (.group level) hx hn
  · obtain ⟨cause, refused, -⟩ := push_not_fits (p := p) hs hf
    cases hn.symm.trans refused

/-- Tokens that are taken have been read. -/
theorem pushMany {before : List Token} (h : PartlyRead p before stack)
    (hn : Stack.pushMany p stack tokens = .ok next) : PartlyRead p (before ++ tokens) next := by
  induction tokens generalizing before stack with
  | nil =>
    cases hn
    rwa [List.append_nil]
  | cons token tokens ih =>
    rw [pushMany_cons] at hn
    obtain ⟨middle, first, later⟩ := bind_eq_ok.mp hn
    have read := ih (h.push first) later
    rwa [List.append_assoc] at read

/-- If a number alone is left, the tokens are a level of that value. -/
theorem exists_level {x : Decimal} (h : PartlyRead p tokens [.number x]) :
    ∃ level : Level, level.tokens = tokens ∧ level.eval p = .ok x := by
  cases h with
  | level level hstart hb hx =>
    cases hstart
    exact ⟨level, rfl, hx⟩

end PartlyRead

/-! ### Evaluation -/

mutual

/-- An operand has no value only because of an operator in it. -/
theorem Operand.kind_of_eval {p : Precision} {cause : Cause} (operand : Operand)
    (h : operand.eval p = .error cause) : cause.kind = .domain := by
  cases operand with
  | number x => cases h
  | group level => exact Level.kind_of_eval level h
  | prefixed op operand =>
    rcases bind_eq_error.mp h with h | ⟨x, -, h⟩
    · exact Operand.kind_of_eval operand h
    · exact PrefixOp.kind_of_apply h

/-- A level has no value only because of an operator in it. -/
theorem Level.kind_of_eval {p : Precision} {cause : Cause} (level : Level)
    (h : level.eval p = .error cause) : cause.kind = .domain := by
  cases level with
  | single operand => exact Operand.kind_of_eval operand h
  | binary left op right =>
    rcases bind_eq_error.mp h with h | ⟨x, -, h⟩
    · exact Level.kind_of_eval left h
    · rcases bind_eq_error.mp h with h | ⟨y, -, h⟩
      · exact Operand.kind_of_eval right h
      · exact BinaryOp.kind_of_apply h
  | postfixed level op =>
    rcases bind_eq_error.mp h with h | ⟨x, -, h⟩
    · exact Level.kind_of_eval level h
    · exact PostfixOp.kind_of_apply h

end

/-- Pushing tokens onto the empty stack leaves a number alone exactly if they are a level of that
value. -/
theorem pushMany_eq_number_iff {p : Precision} {tokens : List Token} {x : Decimal} :
    pushMany p [] tokens = .ok [.number x] ↔
      ∃ level : Level, level.tokens = tokens ∧ level.eval p = .ok x := by
  constructor
  · intro h
    exact (PartlyRead.start.pushMany h).exists_level
  · rintro ⟨level, rfl, hx⟩
    rw [Level.pushMany_tokens p level .bottom, hx]
    rfl

/-- Pushing reduces as the tree evaluates. All tokens are taken and a number alone is left exactly
if they are a level of that value. If a level has no value, for a cause that lies in an operator, its
tokens are taken up to one that is refused for that very cause. -/
theorem pushMany_reduces_iff_level_evaluates (p : Precision) (tokens : List Token) :
    (∀ x, pushMany p [] tokens = .ok [.number x] ↔
      ∃ level : Level, level.tokens = tokens ∧ level.eval p = .ok x) ∧
    ∀ (level : Level) cause, level.tokens = tokens → level.eval p = .error cause →
      cause.kind = .domain ∧
      ∃ before token after stack, tokens = before ++ token :: after ∧
        pushMany p [] before = .ok stack ∧ push p stack token = .error (.fault cause) := by
  refine ⟨fun x ↦ pushMany_eq_number_iff, ?_⟩
  rintro level cause rfl hcause
  refine ⟨level.kind_of_eval hcause, exists_refused ?_⟩
  rw [Level.pushMany_tokens p level .bottom, hcause]
  rfl

/-- The level `(2 - 1) / ~1` has no value: its last token is refused for the division by zero. -/
theorem pushMany_reduces_one_over_complement :
    ∃ before token after stack,
      ([.opening, .number (.ofNat 2), .symbol (.binaryOp .difference), .number (.ofNat 1), .closing,
          .symbol (.binaryOp .quotient), .symbol (.prefixOp .complement), .number (.ofNat 1)] :
        List Token) = before ++ token :: after ∧
      pushMany .standard [] before = .ok stack ∧
      push .standard stack token = .error (.fault (.nonpositiveDivisor (.ofNat 0))) :=
  ((pushMany_reduces_iff_level_evaluates .standard _).2
    (.binary
      (.single (.group (.binary (.single (.number (.ofNat 2))) .difference (.number (.ofNat 1)))))
      .quotient (.prefixed .complement (.number (.ofNat 1))))
    (.nonpositiveDivisor (.ofNat 0)) rfl rfl).2

end FuzzyCalc
