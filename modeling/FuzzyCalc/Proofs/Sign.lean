import FuzzyCalc.Decimal.Power
import FuzzyCalc.Proofs.Rounding
import FuzzyCalc.Proofs.Success

/-!
# Numbers not below zero

The operators keep the numbers that are finite and not below zero. They do so with a minus sign on
zeros or without: zeros only carry one if operands did. That holds of each operation of the
arithmetic first, and of each operator from it, together with the checks that the operator makes.
-/

namespace FuzzyCalc

namespace FiniteDecimal

/-- Not below zero. A minus sign is only on zeros, and nowhere unless `minusZero`. -/
def Nonneg (minusZero : Bool) (x : FiniteDecimal) : Prop :=
  x.negative = true → minusZero = true ∧ x.coefficient = 0

variable {s : Bool} {p : Precision} {x y z : FiniteDecimal}

/-- A number without a minus sign is not below zero. -/
theorem nonneg_of_negative (h : x.negative = false) : x.Nonneg s := by
  intro hx
  rw [h] at hx
  cases hx

/-- Nonzero numbers that are not below zero have no minus sign. -/
theorem Nonneg.negative (h : x.Nonneg s) (hx : x.coefficient ≠ 0) : x.negative = false := by
  cases hn : x.negative with
  | false => rfl
  | true => exact absurd (h hn).2 hx

/-- Rounding stays above zero. -/
theorem Nonneg.round (h : x.Nonneg s) (hy : x.round p = .ok y) : y.Nonneg s := by
  intro hn
  rw [negative_of_round hy] at hn
  exact ⟨(h hn).1, (coefficient_eq_zero_of_round hy).mpr (h hn).2⟩

/-- A number that is not below zero is no negative multiple of any power of ten. -/
theorem Nonneg.alignedTo (h : x.Nonneg s) (e : Int) : 0 ≤ x.alignedTo e := by
  unfold FiniteDecimal.alignedTo
  split
  · exact Int.le_refl 0
  · next hx =>
    have positive := h.negative (by simpa [isZero] using hx)
    rw [signed, positive]
    exact Int.mul_nonneg (Int.natCast_nonneg _) (Int.natCast_nonneg _)

/-- The number with the other sign is the opposite multiple. -/
theorem alignedTo_neg (x : FiniteDecimal) (e : Int) : x.neg.alignedTo e = -x.alignedTo e := by
  have signs : x.neg.signed = -x.signed := by
    unfold signed neg
    cases x.negative <;> simp
  unfold alignedTo
  rw [signs]
  change (if x.isZero then 0 else -x.signed * _) = _
  split
  · rfl
  · exact Int.neg_mul _ _

/-- An exact sum has a minus sign if it is below zero, or if it is zero and both operands have
one. -/
theorem negative_exactAdd (x y : FiniteDecimal) :
    (x.exactAdd y).negative = true ↔
      x.alignedTo (min x.exponent y.exponent) + y.alignedTo (min x.exponent y.exponent) < 0 ∨
      x.alignedTo (min x.exponent y.exponent) + y.alignedTo (min x.exponent y.exponent) = 0 ∧
        x.negative = true ∧ y.negative = true := by
  unfold exactAdd
  dsimp only
  split
  · next hzero => simp [hzero]
  · next hsum => simp [hsum]

/-- An exact sum is zero if the multiples cancel. -/
theorem coefficient_exactAdd (x y : FiniteDecimal) :
    (x.exactAdd y).coefficient = 0 ↔
      x.alignedTo (min x.exponent y.exponent) + y.alignedTo (min x.exponent y.exponent) = 0 :=
  Int.natAbs_eq_zero

/-- Sums stay above zero. -/
theorem Nonneg.exactAdd (hx : x.Nonneg s) (hy : y.Nonneg s) : (x.exactAdd y).Nonneg s := by
  intro hn
  have left := hx.alignedTo (min x.exponent y.exponent)
  have right := hy.alignedTo (min x.exponent y.exponent)
  rcases (negative_exactAdd x y).mp hn with below | ⟨hzero, hxn, -⟩
  · omega
  · exact ⟨(hx hxn).1, (coefficient_exactAdd x y).mpr hzero⟩

/-- A difference is above zero unless the right side is larger. -/
theorem Nonneg.exactSub (hx : x.Nonneg s) (h : y.order x ≠ .gt) :
    (x.exactAdd y.neg).Nonneg s := by
  intro hn
  have least :
      y.alignedTo (min x.exponent y.exponent) ≤ x.alignedTo (min x.exponent y.exponent) := by
    rw [Int.min_comm x.exponent y.exponent]
    exact Int.compare_ne_gt.mp h
  rcases (negative_exactAdd x y.neg).mp hn with below | ⟨hzero, hxn, -⟩
  · rw [alignedTo_neg] at below
    change x.alignedTo (min x.exponent y.exponent) + -y.alignedTo (min x.exponent y.exponent) < 0
      at below
    omega
  · exact ⟨(hx hxn).1, (coefficient_exactAdd x y.neg).mpr hzero⟩

/-- Products stay above zero. -/
theorem Nonneg.exactMul (hx : x.Nonneg s) (hy : y.Nonneg s) : (x.exactMul y).Nonneg s := by
  intro hn
  change (x.negative != y.negative) = true at hn
  change s = true ∧ x.coefficient * y.coefficient = 0
  cases hxn : x.negative with
  | true => rw [(hx hxn).2, Nat.zero_mul]; exact ⟨(hx hxn).1, rfl⟩
  | false =>
    rw [hxn, Bool.false_bne] at hn
    rw [(hy hn).2, Nat.mul_zero]
    exact ⟨(hy hn).1, rfl⟩

/-- Quotients stay above zero. -/
theorem Nonneg.div (hx : x.Nonneg s) (hy : y.Nonneg s) (hz : x.div p y = .ok z) : z.Nonneg s := by
  unfold FiniteDecimal.div at hz
  dsimp only at hz
  split at hz
  · cases hz
  · next hynz =>
    have hyn := hy.negative (by simpa [isZero] using hynz)
    split at hz
    · next hxz =>
      refine Nonneg.round ?_ hz
      intro hn
      change (x.negative != y.negative) = true at hn
      rw [hyn, Bool.bne_false] at hn
      exact ⟨(hx hn).1, rfl⟩
    · next hxnz =>
      have hxn := hx.negative (by simpa [isZero] using hxnz)
      have positive : (x.negative != y.negative) = false := by rw [hxn, hyn]; rfl
      split at hz
      · exact Nonneg.round (nonneg_of_negative positive) hz
      · exact Nonneg.round (nonneg_of_negative positive) hz

/-! ### Powers -/

/-- A product has no minus sign if neither side has one. -/
theorem negative_of_mul (hx : x.negative = false) (hy : y.negative = false)
    (hz : x.mul p y = .ok z) : z.negative = false := by
  rw [negative_of_round hz]
  change (x.negative != y.negative) = false
  rw [hx, hy]
  rfl

private theorem negative_of_powFromTop (hx : x.negative = false) (n : Nat)
    (hz : powFromTop p x n = .ok z) : z.negative = false := by
  induction n using Nat.strongRecOn generalizing z with
  | ind n ih =>
    rw [powFromTop] at hz
    split at hz
    · cases hz
      exact hx
    · next hn =>
      obtain ⟨half, hhalf, hz⟩ := bind_eq_ok.mp hz
      obtain ⟨square, hsquare, hz⟩ := bind_eq_ok.mp hz
      have half_sign := ih (n / 2) (by omega) hhalf
      have square_sign := negative_of_mul half_sign half_sign hsquare
      split at hz
      · exact negative_of_mul square_sign hx hz
      · cases hz
        exact square_sign

private theorem negative_of_powFromBottom {product : FiniteDecimal}
    (hproduct : product.negative = false) (hx : x.negative = false) (n : Nat)
    (hz : powFromBottom p product x n = .ok z) : z.negative = false := by
  induction n using Nat.strongRecOn generalizing product x with
  | ind n ih =>
    have goOn {next : FiniteDecimal} (hnext : next.negative = false) (hn : n ≠ 0)
        (h : (if n = 1 then .ok next
          else do powFromBottom p next (← x.mul p x) (n / 2)) = Except.ok z) :
        z.negative = false := by
      split at h
      · cases h
        exact hnext
      · obtain ⟨square, hsquare, h⟩ := bind_eq_ok.mp h
        exact ih (n / 2) (by omega) hnext (negative_of_mul hx hx hsquare) h
    rw [powFromBottom] at hz
    split at hz
    · cases hz
      exact hproduct
    · next hn =>
      dsimp only at hz
      split at hz
      · obtain ⟨next, hnext, hz⟩ := bind_eq_ok.mp hz
        exact goOn (negative_of_mul hproduct hx hnext) hn hz
      · exact goOn hproduct hn hz

private theorem negative_of_powInteger (hx : x.negative = false) (n : Nat)
    (hz : x.powInteger p y n = .ok z) : z.negative = false := by
  have goOn {base : FiniteDecimal} {working : Precision} (hbase : base.negative = false)
      (h : (if n < powFromBottomStart then do round p (← powFromTop working base n)
        else do round p (← powFromBottom working (.ofNat 1) base n)) = Except.ok z) :
      z.negative = false := by
    split at h
    · obtain ⟨power, hpower, h⟩ := bind_eq_ok.mp h
      rw [negative_of_round h]
      exact negative_of_powFromTop hbase n hpower
    · obtain ⟨power, hpower, h⟩ := bind_eq_ok.mp h
      rw [negative_of_round h]
      exact negative_of_powFromBottom rfl hbase n hpower
  unfold powInteger at hz
  dsimp only at hz
  split at hz
  · obtain ⟨base, hbase, hz⟩ := bind_eq_ok.mp hz
    have one : (FiniteDecimal.ofNat 1).Nonneg false := nonneg_of_negative rfl
    have kept : base.Nonneg false := one.div (nonneg_of_negative hx) hbase
    exact goOn (by simpa [Nonneg] using kept) hz
  · exact goOn hx hz

private theorem negative_of_powReal (hz : x.powReal p y = .ok z) : z.negative = false := by
  unfold powReal at hz
  dsimp only at hz
  split at hz
  · cases hz
  · split at hz
    · cases hz
    · split at hz
      · cases hz
      · exact negative_of_round hz

/-- A power of a number without a minus sign has none. -/
theorem negative_of_pow (hx : x.negative = false) (hz : x.pow p y = .ok z) :
    z.negative = false := by
  unfold pow at hz
  simp only [hx, Bool.false_and, Bool.false_eq_true, if_false] at hz
  split at hz
  · split at hz
    · split at hz
      · cases hz
        rfl
      · cases hz
        rfl
    · cases hz
      rfl
  · split at hz
    · cases hz
    · split at hz
      · exact negative_of_powInteger hx _ hz
      · exact negative_of_powReal hz

end FiniteDecimal

namespace Decimal

/-- Finite and not below zero. A minus sign is only on zeros, and nowhere unless `minusZero`. -/
def Nonneg (minusZero : Bool) : Decimal → Prop
  | .finite x => x.Nonneg minusZero
  | _ => False

variable {s : Bool} {p : Precision} {x y z : Decimal}

/-- A number that is not below zero is finite. -/
theorem Nonneg.exists_finite (h : x.Nonneg s) :
    ∃ f : FiniteDecimal, x = .finite f ∧ f.Nonneg s := by
  cases x with
  | finite f => exact ⟨f, rfl, h⟩
  | infinity negative => exact h.elim
  | nan negative signaling payload => exact h.elim

/-- A number that is not below zero does not count as no value. -/
theorem Nonneg.isBelowZero (h : x.Nonneg s) : x.isBelowZero = false := by
  obtain ⟨f, rfl, hf⟩ := h.exists_finite
  cases hn : f.negative with
  | false => simp [Decimal.isBelowZero, hn]
  | true => simp [Decimal.isBelowZero, FiniteDecimal.isZero, (hf hn).2]

/-- Yes and no are not below zero. -/
theorem nonneg_ofBool (yes : Bool) : (ofBool yes).Nonneg s := by
  cases yes with
  | false => exact FiniteDecimal.nonneg_of_negative rfl
  | true => exact FiniteDecimal.nonneg_of_negative rfl

/-- Natural numbers are not below zero. -/
theorem nonneg_ofNat (n : Nat) : (ofNat n).Nonneg s := FiniteDecimal.nonneg_of_negative rfl

/-- Sums stay above zero. -/
theorem Nonneg.add (hx : x.Nonneg s) (hy : y.Nonneg s) (hz : x.add p y = .ok z) : z.Nonneg s := by
  obtain ⟨f, rfl, hf⟩ := hx.exists_finite
  obtain ⟨g, rfl, hg⟩ := hy.exists_finite
  obtain ⟨r, hr, rfl⟩ := map_eq_ok.mp hz
  exact (hf.exactAdd hg).round hr

/-- Products stay above zero. -/
theorem Nonneg.mul (hx : x.Nonneg s) (hy : y.Nonneg s) (hz : x.mul p y = .ok z) : z.Nonneg s := by
  obtain ⟨f, rfl, hf⟩ := hx.exists_finite
  obtain ⟨g, rfl, hg⟩ := hy.exists_finite
  obtain ⟨r, hr, rfl⟩ := map_eq_ok.mp hz
  exact (hf.exactMul hg).round hr

/-- Quotients stay above zero. -/
theorem Nonneg.div (hx : x.Nonneg s) (hy : y.Nonneg s) (hz : x.div p y = .ok z) : z.Nonneg s := by
  obtain ⟨f, rfl, hf⟩ := hx.exists_finite
  obtain ⟨g, rfl, hg⟩ := hy.exists_finite
  obtain ⟨r, hr, rfl⟩ := map_eq_ok.mp hz
  exact hf.div hg hr

/-- A difference is above zero unless the right side is larger. -/
theorem Nonneg.sub {o : Ordering} (hx : x.Nonneg s) (hy : y.Nonneg s) (ho : y.order x = .ok o)
    (hle : ¬ o.isGT = true) (hz : x.sub p y = .ok z) : z.Nonneg s := by
  obtain ⟨f, rfl, hf⟩ := hx.exists_finite
  obtain ⟨g, rfl, hg⟩ := hy.exists_finite
  obtain ⟨r, hr, rfl⟩ := map_eq_ok.mp hz
  have order : g.order f = o := Except.ok.inj ho
  refine FiniteDecimal.Nonneg.round (hf.exactSub ?_) hr
  rw [order]
  rintro rfl
  exact hle rfl

/-- Powers stay above zero. -/
theorem Nonneg.pow (hx : x.Nonneg s) (hy : y.Nonneg s) (hz : x.pow p y = .ok z) : z.Nonneg s := by
  obtain ⟨f, rfl, hf⟩ := hx.exists_finite
  obtain ⟨g, rfl, hg⟩ := hy.exists_finite
  change (if f.isZero then _ else _) = _ at hz
  split at hz
  · next hfzero =>
    change (if g.isZero then _ else _) = _ at hz
    split at hz
    · cases hz
    · next hgzero =>
      have positive : (finite g).isNegative = false :=
        hg.negative (by simpa [FiniteDecimal.isZero] using hgzero)
      rw [positive] at hz
      cases hz
      intro hn
      exact ⟨(hf (Bool.and_eq_true_iff.mp hn).1).1, rfl⟩
  · next hfzero =>
    have positive := hf.negative (by simpa [FiniteDecimal.isZero] using hfzero)
    change (if g.isZero then _ else _) = _ at hz
    split at hz
    · cases hz
      exact nonneg_ofNat 1
    · obtain ⟨r, hr, rfl⟩ := map_eq_ok.mp hz
      exact FiniteDecimal.nonneg_of_negative (FiniteDecimal.negative_of_pow positive hr)

/-- Averages stay above zero. -/
theorem Nonneg.average (hx : x.Nonneg s) (hy : y.Nonneg s) (hz : x.average p y = .ok z) :
    z.Nonneg s := by
  obtain ⟨sum, hsum, hz⟩ := bind_eq_ok.mp hz
  exact (hx.add hy hsum).div (nonneg_ofNat 2) hz

end Decimal

namespace FiniteDecimal

variable {s : Bool} {p : Precision} {x y z : FiniteDecimal}

/-- A nonzero number with a minus sign is below zero. -/
theorem order_zero_of_negative (hx : x.negative = true) (hc : x.coefficient ≠ 0) :
    x.order (.ofNat 0) = .lt := by
  have below : x.alignedTo (min x.exponent 0) < 0 := by
    have hz : ¬ x.isZero = true := by simpa [isZero] using hc
    have digits : 0 < (x.coefficient : Int) := by omega
    have power : 0 < (Digits.tenTo (x.exponent - min x.exponent 0).toNat : Int) :=
      Int.natCast_pos.mpr (Digits.tenTo_pos _)
    rw [alignedTo, if_neg hz, signed, if_pos hx]
    exact Int.mul_neg_of_neg_of_pos (by omega) power
  have zero : (ofNat 0).alignedTo (min x.exponent 0) = 0 := rfl
  change compare (x.alignedTo (min x.exponent 0)) ((ofNat 0).alignedTo (min x.exponent 0)) = .lt
  rw [zero]
  exact Int.compare_eq_lt.mpr below

/-- A rounded difference that does not come out below zero is above zero. -/
theorem Nonneg.sub (hx : x.Nonneg s) (hz : (x.exactAdd y.neg).round p = .ok z)
    (h : z.order (.ofNat 0) ≠ .lt) : z.Nonneg s := by
  intro hn
  by_cases hc : z.coefficient = 0
  · have exactZero := (coefficient_eq_zero_of_round hz).mp hc
    rw [negative_of_round hz] at hn
    rcases (negative_exactAdd x y.neg).mp hn with below | ⟨-, hxn, -⟩
    · exact absurd ((coefficient_exactAdd x y.neg).mp exactZero) (by omega)
    · exact ⟨(hx hxn).1, hc⟩
  · exact absurd (order_zero_of_negative hn hc) h

end FiniteDecimal

/-! ### The operators -/

section

variable {s : Bool} {p : Precision} {x y z : Decimal}

/-- Prefix operators stay above zero. -/
theorem PrefixOp.nonneg_apply {op : PrefixOp} (hx : x.Nonneg s) (h : op.apply p x = .ok z) :
    z.Nonneg s := by
  cases op with
  | complement =>
    obtain ⟨o, ho, h⟩ := bind_eq_ok.mp h
    split at h
    · cases h
    · next hle =>
      exact (Decimal.nonneg_ofNat 1).sub hx (attempt_eq_ok.mp ho) hle (attempt_eq_ok.mp h)
  | possible =>
    obtain ⟨o, -, rfl⟩ := map_eq_ok.mp (attempt_eq_ok.mp h)
    exact Decimal.nonneg_ofBool _
  | certain =>
    obtain ⟨o, -, rfl⟩ := map_eq_ok.mp (attempt_eq_ok.mp h)
    exact Decimal.nonneg_ofBool _

/-- Postfix operators stay above zero. -/
theorem PostfixOp.nonneg_apply {op : PostfixOp} (hx : x.Nonneg s) (h : op.apply p x = .ok z) :
    z.Nonneg s := by
  cases op with
  | percent => exact hx.div (Decimal.nonneg_ofNat 100) (attempt_eq_ok.mp h)

/-- A disjunction that is not refused is not below zero. -/
theorem nonneg_disjunction (hx : x.Nonneg s) (hy : y.Nonneg s)
    (h : BinaryOp.disjunction.apply p x y = .ok z) : z.Nonneg s := by
  obtain ⟨result, hresult, h⟩ := bind_eq_ok.mp h
  obtain ⟨o, ho, h⟩ := bind_eq_ok.mp h
  split at h
  · cases h
  · next hlt =>
    cases h
    obtain ⟨sum, hsum, hrest⟩ := bind_eq_ok.mp (attempt_eq_ok.mp hresult)
    obtain ⟨product, hproduct, hsub⟩ := bind_eq_ok.mp hrest
    obtain ⟨f, rfl, hf⟩ := (hx.add hy hsum).exists_finite
    obtain ⟨g, rfl, -⟩ := (hx.mul hy hproduct).exists_finite
    obtain ⟨r, hr, rfl⟩ := map_eq_ok.mp hsub
    have order : r.order (.ofNat 0) = o := Except.ok.inj (attempt_eq_ok.mp ho)
    refine hf.sub hr ?_
    rw [order]
    rintro rfl
    exact hlt rfl

/-- Binary operators stay above zero. -/
theorem BinaryOp.nonneg_apply {op : BinaryOp} (hx : x.Nonneg s) (hy : y.Nonneg s)
    (h : op.apply p x y = .ok z) : z.Nonneg s := by
  cases op with
  | equal | less | more | notEqual | lessOrEqual | moreOrEqual =>
    obtain ⟨answer, -, rfl⟩ := map_eq_ok.mp (attempt_eq_ok.mp h)
    exact Decimal.nonneg_ofBool _
  | minimum | maximum =>
    obtain ⟨o, -, rfl⟩ := map_eq_ok.mp (attempt_eq_ok.mp h)
    split
    · exact hx
    · exact hy
  | sum => exact hx.add hy (attempt_eq_ok.mp h)
  | product => exact hx.mul hy (attempt_eq_ok.mp h)
  | average => exact hx.average hy (attempt_eq_ok.mp h)
  | difference =>
    obtain ⟨d, hd, rfl⟩ := map_eq_ok.mp (attempt_eq_ok.mp h)
    obtain ⟨f, rfl, -⟩ := hx.exists_finite
    obtain ⟨g, rfl, -⟩ := hy.exists_finite
    obtain ⟨r, -, rfl⟩ := map_eq_ok.mp hd
    exact FiniteDecimal.nonneg_of_negative rfl
  | quotient =>
    obtain ⟨atMostZero, -, h⟩ := bind_eq_ok.mp h
    split at h
    · cases h
    · exact hx.div hy (attempt_eq_ok.mp h)
  | power =>
    obtain ⟨baseAtMostZero, -, h⟩ := bind_eq_ok.mp h
    split at h
    · obtain ⟨atMostZero, -, h⟩ := bind_eq_ok.mp h
      split at h
      · cases h
      · exact hx.pow hy (attempt_eq_ok.mp h)
    · exact hx.pow hy (attempt_eq_ok.mp h)
  | disjunction => exact nonneg_disjunction hx hy h

end

end FuzzyCalc
