import FuzzyCalc.Proofs.Diagnosis
import FuzzyCalc.Proofs.Rendering
import FuzzyCalc.Proofs.Symmetry
import FuzzyCalc.Proofs.Values

/-!
# Where values come from

Whatever an operator computes is rounded: it has at most the digits of the precision, and exponents
within range. Only a minimum and a maximum hand on an operand as it is. So a value that is not
rounded has come through a whole expression untouched: it is that of a numeral or of a variable
there.
-/

namespace FuzzyCalc

open Stack

/-- A number has at most the digits of a precision, and the exponents of its first and of its last
digit are in range. -/
structure FiniteDecimal.IsRounded (p : Precision) (x : FiniteDecimal) : Prop where
  /-- The digits fit. -/
  digits : Digits.count x.coefficient ≤ p.digits
  /-- The number is not too large. -/
  leading : x.leadingExponent ≤ maxExponent
  /-- The number is not too fine. -/
  least : p.leastExponent ≤ x.exponent

/-- The last digit of a result may be far finer than that of a one with as many digits. -/
theorem Precision.leastExponent_lt (p : Precision) : p.leastExponent < -(p.digits - 1 : Int) := by
  unfold leastExponent minExponent
  omega

namespace FiniteDecimal

variable {p : Precision} {x y z : FiniteDecimal}

/-! ### Arithmetic -/

/-- A single digit is rounded if its exponent is in range. -/
theorem isRounded_digit (negative : Bool) {n : Nat} {e : Int} (h : n < 10)
    (least : p.leastExponent ≤ e) (most : e ≤ maxExponent) :
    (FiniteDecimal.mk negative n e).IsRounded p := by
  have single : Digits.count n ≤ 1 := Digits.count_le_of_lt Nat.one_pos h
  refine ⟨Nat.le_trans single p.digits_pos, ?_, least⟩
  unfold leadingExponent
  dsimp only
  omega

/-- So is one before the point. -/
theorem isRounded_unit (negative : Bool) {n : Nat} (h : n < 10) :
    (FiniteDecimal.mk negative n 0).IsRounded p := by
  have digits := p.digits_pos
  have fine := p.leastExponent_lt
  exact isRounded_digit negative h (by omega) (by decide)

/-- The nearest number with the digits of the precision is rounded if it is not too large. -/
theorem isRounded_nearest (h : (x.nearest p).leadingExponent ≤ maxExponent) :
    (x.nearest p).IsRounded p := by
  have few := roundHalfEven_le_tenTo p x
  have positive := Digits.tenTo_pos p.digits
  have least : p.leastExponent ≤ x.roundedExponent p :=
    Int.le_trans (Int.le_max_right _ _) (Int.le_max_right _ _)
  unfold nearest at h ⊢
  dsimp only at h ⊢
  split at h
  · next carried =>
    rw [if_pos carried]
    refine ⟨Digits.count_le_of_lt p.digits_pos ?_, h, ?_⟩
    · change roundHalfEven x.coefficient (x.roundingUnit p) / 10 < Digits.tenTo p.digits
      omega
    · change p.leastExponent ≤ x.roundedExponent p + 1
      omega
  · next fits =>
    rw [if_neg fits]
    exact ⟨Nat.le_of_not_lt fits, h, least⟩

/-- What comes out of rounding is rounded. -/
theorem isRounded_of_round (h : x.round p = .ok y) : y.IsRounded p := by
  rcases round_cases h with ⟨zero, rfl⟩ | ⟨-, -, -, -, rfl, leading⟩
  · have fine : p.leastExponent ≤ maxExponent := by
      unfold Precision.leastExponent minExponent maxExponent
      omega
    exact isRounded_digit x.negative (by omega) (Int.le_max_left _ _)
      (Int.max_le.mpr ⟨fine, Int.min_le_right _ _⟩)
  · exact isRounded_nearest leading

/-- Without its sign a rounded number is rounded. -/
theorem IsRounded.abs (h : x.IsRounded p) : x.abs.IsRounded p := ⟨h.digits, h.leading, h.least⟩

/-- One with fewer decimals than there are digits is rounded. -/
theorem isRounded_oneWith (negative : Bool) {decimals : Nat} (h : decimals < p.digits) :
    (oneWith negative decimals).IsRounded p := by
  have digits : Digits.count (Digits.tenTo decimals) ≤ decimals + 1 :=
    Digits.count_le_of_lt (Nat.succ_pos _) (Nat.pow_lt_pow_right (by decide) (Nat.lt_succ_self _))
  have fine := p.leastExponent_lt
  refine ⟨?_, ?_, ?_⟩
  · change Digits.count (Digits.tenTo decimals) ≤ p.digits
    omega
  · unfold leadingExponent oneWith maxExponent
    dsimp only
    omega
  · change p.leastExponent ≤ -decimals
    omega

/-- At a precision that can be asked for, a rounded number is readable. -/
theorem IsRounded.readable (h : x.IsRounded p) (hp : p.digits ≤ Precision.maxDigits) :
    x.Readable := by
  obtain ⟨-, leading, least⟩ := h
  unfold Precision.leastExponent minExponent at least
  unfold maxExponent at leading
  unfold Precision.maxDigits at hp
  unfold Readable Decimal.leastNumeralExponent Decimal.largestNumeralExponent
  omega

/-- A quotient is rounded. -/
theorem isRounded_of_div (h : x.div p y = .ok z) : z.IsRounded p := by
  unfold div at h
  dsimp only at h
  split at h
  · cases h
  · split at h
    · exact isRounded_of_round h
    · split at h
      · exact isRounded_of_round h
      · exact isRounded_of_round h

/-- A power to an integer is rounded, after all the products that it takes. -/
theorem isRounded_of_powInteger {n : Nat} (h : x.powInteger p y n = .ok z) : z.IsRounded p := by
  have last {base : FiniteDecimal} {working : Precision}
      (h : (if n < powFromBottomStart then do round p (← powFromTop working base n)
        else do round p (← powFromBottom working (.ofNat 1) base n)) = Except.ok z) :
      z.IsRounded p := by
    split at h
    · obtain ⟨power, -, h⟩ := bind_eq_ok.mp h
      exact isRounded_of_round h
    · obtain ⟨power, -, h⟩ := bind_eq_ok.mp h
      exact isRounded_of_round h
  unfold powInteger at h
  dsimp only at h
  split at h
  · obtain ⟨base, -, h⟩ := bind_eq_ok.mp h
    exact last h
  · exact last h

/-- Any other power is rounded in the end. -/
theorem isRounded_of_powReal (h : x.powReal p y = .ok z) : z.IsRounded p := by
  unfold powReal at h
  dsimp only at h
  split at h
  · cases h
  · split at h
    · cases h
    · split at h
      · cases h
      · exact isRounded_of_round h

/-- A power is rounded; one of one has fewer decimals than there are digits. -/
theorem isRounded_of_pow (h : x.pow p y = .ok z) : z.IsRounded p := by
  have digits := p.digits_pos
  unfold pow at h
  dsimp only at h
  split at h
  · cases h
  · split at h
    · -- A power of one is written with decimals, but leaves a digit of the precision for the one.
      split at h
      · split at h
        · cases h
          exact isRounded_oneWith _ digits
        · cases h
          exact isRounded_oneWith _ (by omega)
      · cases h
        exact isRounded_oneWith _ (by omega)
    · split at h
      · cases h
      · split at h
        · exact isRounded_of_powInteger h
        · exact isRounded_of_powReal h

end FiniteDecimal

namespace Decimal

/-- Finite and rounded. -/
def IsRounded (p : Precision) (x : Decimal) : Prop :=
  ∃ f : FiniteDecimal, x = .finite f ∧ f.IsRounded p

variable {s : Bool} {p : Precision} {f g : FiniteDecimal} {x y z : Decimal}

/-- Yes and no are rounded. -/
theorem isRounded_ofBool (yes : Bool) : (ofBool yes).IsRounded p := by
  cases yes with
  | false => exact ⟨_, rfl, FiniteDecimal.isRounded_unit false (by decide)⟩
  | true => exact ⟨_, rfl, FiniteDecimal.isRounded_unit false (by decide)⟩

/-- A sum of finite numbers is rounded. -/
theorem isRounded_of_add (h : (finite f).add p (finite g) = .ok z) : z.IsRounded p := by
  obtain ⟨r, hr, rfl⟩ := map_eq_ok.mp h
  exact ⟨r, rfl, FiniteDecimal.isRounded_of_round hr⟩

/-- A difference of finite numbers is rounded. -/
theorem isRounded_of_sub (h : (finite f).sub p (finite g) = .ok z) : z.IsRounded p :=
  isRounded_of_add (g := g.neg) h

/-- A product of finite numbers is rounded. -/
theorem isRounded_of_mul (h : (finite f).mul p (finite g) = .ok z) : z.IsRounded p := by
  obtain ⟨r, hr, rfl⟩ := map_eq_ok.mp h
  exact ⟨r, rfl, FiniteDecimal.isRounded_of_round hr⟩

/-- A quotient of finite numbers is rounded. -/
theorem isRounded_of_div (h : (finite f).div p (finite g) = .ok z) : z.IsRounded p := by
  obtain ⟨r, hr, rfl⟩ := map_eq_ok.mp h
  exact ⟨r, rfl, FiniteDecimal.isRounded_of_div hr⟩

/-- A power of numbers not below zero is rounded. -/
theorem isRounded_of_pow (hg : g.Nonneg s) (h : (finite f).pow p (finite g) = .ok z) :
    z.IsRounded p := by
  change (if f.isZero then _ else _) = _ at h
  split at h
  · change (if g.isZero then _ else _) = _ at h
    split at h
    · cases h
    · next nonzero =>
      -- A negative exponent would make a power of zero infinite.
      have positive : (finite g).isNegative = false :=
        hg.negative (by simpa [FiniteDecimal.isZero] using nonzero)
      rw [positive] at h
      cases h
      exact ⟨_, rfl, FiniteDecimal.isRounded_unit _ (by decide)⟩
  · change (if g.isZero then _ else _) = _ at h
    split at h
    · cases h
      exact ⟨_, rfl, FiniteDecimal.isRounded_unit _ (by decide)⟩
    · obtain ⟨r, hr, rfl⟩ := map_eq_ok.mp h
      exact ⟨r, rfl, FiniteDecimal.isRounded_of_pow hr⟩

end Decimal

/-! ### Operators -/

section

variable {s : Bool} {p : Precision} {x y z : Decimal}

/-- What a prefix operator makes of a number is rounded. -/
theorem PrefixOp.isRounded_of_apply {op : PrefixOp} (hx : x.Nonneg s) (h : op.apply p x = .ok z) :
    z.IsRounded p := by
  obtain ⟨f, rfl, -⟩ := hx.exists_finite
  cases op with
  | complement =>
    obtain ⟨o, -, h⟩ := bind_eq_ok.mp h
    split at h
    · cases h
    · exact Decimal.isRounded_of_sub (attempt_eq_ok.mp h)
  | possible | certain =>
    obtain ⟨o, -, rfl⟩ := map_eq_ok.mp (attempt_eq_ok.mp h)
    exact Decimal.isRounded_ofBool _

/-- What a postfix operator makes of a number is rounded. -/
theorem PostfixOp.isRounded_of_apply {op : PostfixOp} (hx : x.Nonneg s) (h : op.apply p x = .ok z) :
    z.IsRounded p := by
  obtain ⟨f, rfl, -⟩ := hx.exists_finite
  cases op with
  | percent => exact Decimal.isRounded_of_div (attempt_eq_ok.mp h)

/-- What is computed from two numbers is rounded. -/
theorem BinaryOp.isRounded_of_apply {op : BinaryOp} (hop : ¬ op.Selects) (hx : x.Nonneg s)
    (hy : y.Nonneg s) (h : op.apply p x y = .ok z) : z.IsRounded p := by
  obtain ⟨f, rfl, -⟩ := hx.exists_finite
  obtain ⟨g, rfl, hg⟩ := hy.exists_finite
  cases op with
  | equal | less | more | notEqual | lessOrEqual | moreOrEqual =>
    obtain ⟨answer, -, rfl⟩ := map_eq_ok.mp (attempt_eq_ok.mp h)
    exact Decimal.isRounded_ofBool _
  | minimum | maximum => exact absurd trivial hop
  | sum => exact Decimal.isRounded_of_add (attempt_eq_ok.mp h)
  | product => exact Decimal.isRounded_of_mul (attempt_eq_ok.mp h)
  | difference =>
    obtain ⟨d, hd, rfl⟩ := map_eq_ok.mp (attempt_eq_ok.mp h)
    obtain ⟨r, rfl, hr⟩ := Decimal.isRounded_of_sub hd
    exact ⟨r.abs, rfl, hr.abs⟩
  | average =>
    obtain ⟨sum, hsum, h⟩ := bind_eq_ok.mp (attempt_eq_ok.mp h)
    obtain ⟨r, rfl, -⟩ := Decimal.isRounded_of_add hsum
    exact Decimal.isRounded_of_div h
  | quotient =>
    obtain ⟨atMostZero, -, h⟩ := bind_eq_ok.mp h
    split at h
    · cases h
    · exact Decimal.isRounded_of_div (attempt_eq_ok.mp h)
  | power =>
    obtain ⟨baseAtMostZero, -, h⟩ := bind_eq_ok.mp h
    split at h
    · obtain ⟨atMostZero, -, h⟩ := bind_eq_ok.mp h
      split at h
      · cases h
      · exact Decimal.isRounded_of_pow hg (attempt_eq_ok.mp h)
    · exact Decimal.isRounded_of_pow hg (attempt_eq_ok.mp h)
  | disjunction =>
    obtain ⟨result, hresult, h⟩ := bind_eq_ok.mp h
    obtain ⟨o, -, h⟩ := bind_eq_ok.mp h
    split at h
    · cases h
    · cases h
      obtain ⟨sum, hsum, hrest⟩ := bind_eq_ok.mp (attempt_eq_ok.mp hresult)
      obtain ⟨product, hproduct, hsub⟩ := bind_eq_ok.mp hrest
      obtain ⟨r, rfl, -⟩ := Decimal.isRounded_of_add hsum
      obtain ⟨t, rfl, -⟩ := Decimal.isRounded_of_mul hproduct
      exact Decimal.isRounded_of_sub hsub

end

/-! ### Lines -/

/-- A number is the value of a numeral or of a variable in a text. -/
def GivenIn (m : Memory) (text : List Char) (x : Decimal) : Prop :=
  ∃ lexeme ∈ Lexeme.split text, lexeme.toToken m = .ok (.number x)

/-- The numbers not below zero that are given or else rounded, with all symbols. -/
def Domain.givenOrRounded (p : Precision) (given : Decimal → Prop) : Domain p where
  number x := x.Nonneg true ∧ (given x ∨ x.IsRounded p)
  symbol _ := True
  prefixOp _ hx h := ⟨PrefixOp.nonneg_apply hx.1 h, .inr (PrefixOp.isRounded_of_apply hx.1 h)⟩
  postfixOp _ hx h := ⟨PostfixOp.nonneg_apply hx.1 h, .inr (PostfixOp.isRounded_of_apply hx.1 h)⟩
  binaryOp {op x y z} _ hx hy h := by
    refine ⟨BinaryOp.nonneg_apply hx.1 hy.1 h, ?_⟩
    by_cases hop : op.Selects
    · rcases BinaryOp.eq_operand hop h with rfl | rfl
      · exact hx.2
      · exact hy.2
    · exact .inr (BinaryOp.isRounded_of_apply hop hx.1 hy.1 h)

section

variable {p : Precision} {m : Memory} {text : List Char} {start : Nat} {x : Decimal}

/-- The tokens of an expression are given in it. -/
theorem contains_givenOrRounded (hm : m.Nonneg true) :
    ∀ token ∈ (Reading.scan m text start).tokens.map Prod.snd,
      (Domain.givenOrRounded p (GivenIn m (text.drop start))).Contains token := by
  intro token h
  obtain ⟨lexeme, member, read⟩ := Reading.exists_lexeme h
  cases token with
  | number y => exact ⟨lexeme.contains_toToken (p := p) hm read, .inl ⟨lexeme, member, read⟩⟩
  | symbol s => trivial

/-- Every number that is ever on the stack is given in the expression or rounded. -/
theorem given_or_rounded_of_passes (hm : m.Nonneg true) {stack : Stack}
    (h : Passes p ((Reading.scan m text start).tokens.map Prod.snd) stack)
    (hx : .number x ∈ stack) : GivenIn m (text.drop start) x ∨ x.IsRounded p :=
  (Domain.passes (contains_givenOrRounded hm) h _ hx).2

/-- The value of an expression is given in it or rounded. -/
theorem given_or_rounded_of_evaluateExpression (hm : m.Nonneg true)
    (h : (evaluateExpression p m text start).result = .ok x) :
    GivenIn m (text.drop start) x ∨ x.IsRounded p := by
  have pushed := (pushLexemes?_eq_some_iff start).mp (evaluateExpression_result_eq_ok.mp h)
  have last : Passes p ((Reading.scan m text start).tokens.map Prod.snd) [.number x] :=
    .between List.prefix_rfl pushed.2
  exact given_or_rounded_of_passes hm last List.mem_cons_self

end

/-- Only what is computed is rounded, and all of that is. If a line has a value or assigns one, then
this is, with its sign and digits as they are, the value of a numeral or of a variable in the
expression of the line; or it has at most the digits of the precision, and exponents in range. -/
theorem evaluateLine_given_or_rounded (p : Precision) (m : Memory) (text : List Char) (x : Decimal)
    (hm : m.Nonneg true)
    (h : (evaluateLine p m text).result = .ok (.value x) ∨
      ∃ letter, assignment? p m text = some (letter, x)) :
    GivenIn m (text.drop (expressionStart text)) x ∨ x.IsRounded p := by
  apply given_or_rounded_of_evaluateExpression hm
  rcases h with value | ⟨letter, stored⟩
  · obtain ⟨y, hy, ⟨⟨⟩, -⟩ | ⟨letter, ⟨⟩, -⟩⟩ := evaluateLine_ok value
    exact hy
  · obtain ⟨expression, rfl, value⟩ := assignment?_eq_some.mp stored
    exact (evaluateExpression_behind_colon letter.toChar).mpr value

/-- At one digit `x#0.1` is 0.25 if `x` is, with its two digits; and what is assigned to `y` by
`y:x+0.1` is 0.35 rounded. -/
theorem evaluateLine_given_or_rounded_quarter :
    let p : Precision := ⟨1, by decide⟩
    let quarter : Decimal := .finite ⟨false, 25, -2⟩
    let m := Memory.empty.put ⟨49⟩ quarter
    let greatest := ['x', '#', '0', '.', '1']
    let sum := ['y', ':', 'x', '+', '0', '.', '1']
    let rounded : Decimal := .finite ⟨false, 4, -1⟩
    m.Nonneg true ∧ (evaluateLine p m greatest).result = .ok (.value quarter) ∧
      ¬ quarter.IsRounded p ∧ GivenIn m greatest quarter ∧
      assignment? p m sum = some (⟨50⟩, rounded) ∧ ¬ GivenIn m ['x', '+', '0', '.', '1'] rounded ∧
      rounded.IsRounded p := by
  intro p quarter m greatest sum rounded
  have stored : m.Nonneg true :=
    Memory.forall_value?_put (by simp) (FiniteDecimal.nonneg_of_negative rfl)
  have value : (evaluateLine p m greatest).result = .ok (.value quarter) := by decide +kernel
  have long : ¬ quarter.IsRounded p := by
    rintro ⟨f, same, fits⟩
    obtain rfl := Decimal.finite.inj same
    exact absurd fits.digits (by decide)
  have assigned : assignment? p m sum = some (⟨50⟩, rounded) := by decide +kernel
  have computed : ¬ GivenIn m ['x', '+', '0', '.', '1'] rounded := by
    have none : ∀ lexeme ∈ Lexeme.split ['x', '+', '0', '.', '1'],
        lexeme.toToken m ≠ .ok (.number rounded) := by
      decide +kernel
    rintro ⟨lexeme, member, given⟩
    exact none lexeme member given
  exact ⟨stored, value, long,
    (evaluateLine_given_or_rounded p m greatest quarter stored (.inl value)).resolve_right long,
    assigned, computed,
    (evaluateLine_given_or_rounded p m sum rounded stored (.inr ⟨⟨50⟩, assigned⟩)).resolve_left
      computed⟩

end FuzzyCalc
