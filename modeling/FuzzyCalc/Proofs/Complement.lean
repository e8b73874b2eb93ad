import FuzzyCalc.Proofs.Exactness
import FuzzyCalc.Proofs.SameValues

/-!
# The complement

The complement of a truth value is what it lacks to one, rounded. Two values can have one
complement, if they have more digits than the precision; but rounding keeps the order, so
complements reverse it, and the complement of a minimum is the maximum of the complements, as that
of a maximum is their minimum. A value with no more digits behind the point than the precision has
digits is the complement of its complement: then nothing is rounded.
-/

namespace FuzzyCalc

open FiniteDecimal

namespace Precision

variable {p : Precision} {r s v : ℚ}

/-- Of two values the larger one has no larger complement. -/
theorem antitoneOn_nearest_one_sub (p : Precision) :
    AntitoneOn (fun r ↦ p.nearest (1 - r)) (Set.Iic 1) := by
  intro r _ s hs h
  exact nearest_mono (sub_nonneg.mpr hs) (sub_le_sub_left h 1)

/-- The complement of a smaller value is the larger complement. -/
theorem nearest_one_sub_min (hr : r ≤ 1) (hs : s ≤ 1) :
    p.nearest (1 - min r s) = max (p.nearest (1 - r)) (p.nearest (1 - s)) :=
  (antitoneOn_nearest_one_sub p).map_min hr hs

/-- The complement of a larger value is the smaller complement. -/
theorem nearest_one_sub_max (hr : r ≤ 1) (hs : s ≤ 1) :
    p.nearest (1 - max r s) = min (p.nearest (1 - r)) (p.nearest (1 - s)) :=
  (antitoneOn_nearest_one_sub p).map_max hr hs

/-- A number with no more digits behind the point than the precision has digits. -/
def HasDecimals (p : Precision) (r : ℚ) : Prop := ∃ n : ℤ, r = n * 10 ^ (-p.digits : ℤ)

/-- A decimal that is written with no more digits behind the point is one. -/
theorem hasDecimals_toRat {x : FiniteDecimal} (h : -p.digits ≤ x.exponent) :
    p.HasDecimals x.toRat := exists_multiple h x.signed

/-- What is left to one has no more digits behind the point. -/
theorem HasDecimals.one_sub (h : p.HasDecimals r) : p.HasDecimals (1 - r) := by
  obtain ⟨n, rfl⟩ := h
  refine ⟨10 ^ p.digits - n, ?_⟩
  push_cast
  rw [sub_mul, p.tenPow_digits_mul]

/-- A truth value with so few digits behind the point is its own rounded value. -/
theorem HasDecimals.roundValue_eq (h : p.HasDecimals r) (least : 0 ≤ r) (most : r ≤ 1) :
    p.roundValue r = .ok r := by
  have represented : p.Represents r := by
    obtain ⟨n, rfl⟩ := h
    exact represents_decimals least most
  apply represented.roundValue_eq least
  calc r ≤ 10 ^ (0 : ℤ) := by rwa [zpow_zero]
    _ < 10 ^ (maxExponent + 1) := zpow_lt_zpow_right₀ (by norm_num) (by decide)

end Precision

/-! ### The operator -/

section

variable {p : Precision} {x y notX notY : Decimal} {r s t v : ℚ}

/-- If rounding gives a value then there is a complement, which has it. -/
theorem PrefixOp.exists_complement (hx : x.HasValue r) (most : r ≤ 1)
    (h : p.roundValue (1 - r) = .ok v) :
    ∃ z, PrefixOp.complement.apply p x = .ok z ∧ z.HasValue v := by
  have agree := agree_complement (p := p) hx most
  rw [h] at agree
  exact agree.exists_left

/-- If there is a complement then rounding gives its value. -/
theorem PrefixOp.hasValue_complement (hx : x.HasValue r) (most : r ≤ 1)
    (h : PrefixOp.complement.apply p x = .ok notX) :
    p.roundValue (1 - r) = .ok (p.nearest (1 - r)) ∧ notX.HasValue (p.nearest (1 - r)) := by
  obtain ⟨v, value, rounded⟩ := exists_value_of_agree (agree_complement hx most) h
  obtain rfl := Precision.eq_nearest_of_roundValue rounded
  exact ⟨rounded, value⟩

/-- If two numbers have complements then so has a number with one of their values. -/
theorem PrefixOp.exists_complement_of_choice (hx : x.HasValue r) (hr : r ≤ 1)
    (hy : y.HasValue s) (hs : s ≤ 1) (h : PrefixOp.complement.apply p x = .ok notX)
    (h' : PrefixOp.complement.apply p y = .ok notY) {z : Decimal} (hz : z.HasValue t)
    (choice : t = r ∨ t = s) :
    ∃ notZ, PrefixOp.complement.apply p z = .ok notZ ∧ notZ.HasValue (p.nearest (1 - t)) := by
  rcases choice with rfl | rfl
  · exact exists_complement hz hr (hasValue_complement hx hr h).1
  · exact exists_complement hz hs (hasValue_complement hy hs h').1

/-- Complements reverse the order. -/
theorem PrefixOp.complement_antitone (hx : x.HasValue r) (hr : r ≤ 1) (hy : y.HasValue s)
    (hs : s ≤ 1) (h : PrefixOp.complement.apply p x = .ok notX)
    (h' : PrefixOp.complement.apply p y = .ok notY) (order : r ≤ s) :
    BinaryOp.lessOrEqual.apply p notY notX = .ok .one := by
  have left := (hasValue_complement hx hr h).2
  have right := (hasValue_complement hy hs h').2
  have reversed := Precision.antitoneOn_nearest_one_sub p hr hs order
  rw [BinaryOp.apply, right.order left]
  change Except.ok (Decimal.ofBool (compare _ _).isLE) = _
  rw [isLE_compare, decide_eq_true reversed]
  rfl

/-- The complement of a minimum is the maximum of the complements. -/
theorem PrefixOp.complement_minimum (hx : x.HasValue r) (hr : r ≤ 1) (hy : y.HasValue s)
    (hs : s ≤ 1) (h : PrefixOp.complement.apply p x = .ok notX)
    (h' : PrefixOp.complement.apply p y = .ok notY) :
    ∃ least notLeast most, BinaryOp.minimum.apply p x y = .ok least ∧
      PrefixOp.complement.apply p least = .ok notLeast ∧
      BinaryOp.maximum.apply p notX notY = .ok most ∧ notLeast.SameValue most := by
  have left := (hasValue_complement hx hr h).2
  have right := (hasValue_complement hy hs h').2
  obtain ⟨least, minimum, value⟩ := BinaryOp.exists_minimum p hx hy
  obtain ⟨most, maximum, value'⟩ := BinaryOp.exists_maximum p left right
  obtain ⟨notLeast, complement, value''⟩ :=
    exists_complement_of_choice hx hr hy hs h h' value (min_choice r s)
  rw [Precision.nearest_one_sub_min hr hs] at value''
  exact ⟨least, notLeast, most, minimum, complement, maximum, _, value'', value'⟩

/-- The complement of a maximum is the minimum of the complements. -/
theorem PrefixOp.complement_maximum (hx : x.HasValue r) (hr : r ≤ 1) (hy : y.HasValue s)
    (hs : s ≤ 1) (h : PrefixOp.complement.apply p x = .ok notX)
    (h' : PrefixOp.complement.apply p y = .ok notY) :
    ∃ most notMost least, BinaryOp.maximum.apply p x y = .ok most ∧
      PrefixOp.complement.apply p most = .ok notMost ∧
      BinaryOp.minimum.apply p notX notY = .ok least ∧ notMost.SameValue least := by
  have left := (hasValue_complement hx hr h).2
  have right := (hasValue_complement hy hs h').2
  obtain ⟨most, maximum, value⟩ := BinaryOp.exists_maximum p hx hy
  obtain ⟨least, minimum, value'⟩ := BinaryOp.exists_minimum p left right
  obtain ⟨notMost, complement, value''⟩ :=
    exists_complement_of_choice hx hr hy hs h h' value (max_choice r s)
  rw [Precision.nearest_one_sub_max hr hs] at value''
  exact ⟨most, notMost, least, maximum, complement, minimum, _, value'', value'⟩

end

/-- A truth value with no more digits behind the point than the precision has digits is the
complement of its complement. -/
theorem PrefixOp.complement_complement {p : Precision} {x : FiniteDecimal} (least : 0 ≤ x.toRat)
    (most : x.toRat ≤ 1) (few : p.HasDecimals x.toRat) :
    ∃ notX again, PrefixOp.complement.apply p (.finite x) = .ok notX ∧
      PrefixOp.complement.apply p notX = .ok again ∧ again.SameValue (.finite x) := by
  have hx := Decimal.hasValue_finite x
  obtain ⟨notX, complement, value⟩ :=
    exists_complement hx most (few.one_sub.roundValue_eq (by linarith) (by linarith))
  have back : p.roundValue (1 - (1 - x.toRat)) = .ok x.toRat := by
    rw [sub_sub_cancel]
    exact few.roundValue_eq least most
  obtain ⟨again, complement', value'⟩ := exists_complement value (by linarith) back
  exact ⟨notX, again, complement, complement', _, value', hx⟩

/-- Complements reverse the order and exchange minimum and maximum, however many digits are rounded
off; and where no digits are, because there are no more behind the point than the precision has
digits, a truth value is the complement of its complement. -/
theorem PrefixOp.complement_laws (p : Precision) (x y : FiniteDecimal) (hx : x.toRat ≤ 1)
    (hy : y.toRat ≤ 1) :
    (∀ notX notY, PrefixOp.complement.apply p (.finite x) = .ok notX →
      PrefixOp.complement.apply p (.finite y) = .ok notY →
      (x.toRat ≤ y.toRat → BinaryOp.lessOrEqual.apply p notY notX = .ok .one) ∧
      (∃ least notLeast most, BinaryOp.minimum.apply p (.finite x) (.finite y) = .ok least ∧
        PrefixOp.complement.apply p least = .ok notLeast ∧
        BinaryOp.maximum.apply p notX notY = .ok most ∧ notLeast.SameValue most) ∧
      ∃ most notMost least, BinaryOp.maximum.apply p (.finite x) (.finite y) = .ok most ∧
        PrefixOp.complement.apply p most = .ok notMost ∧
        BinaryOp.minimum.apply p notX notY = .ok least ∧ notMost.SameValue least) ∧
    (0 ≤ x.toRat → p.HasDecimals x.toRat →
      ∃ notX again, PrefixOp.complement.apply p (.finite x) = .ok notX ∧
        PrefixOp.complement.apply p notX = .ok again ∧ again.SameValue (.finite x)) := by
  have valueX := Decimal.hasValue_finite x
  have valueY := Decimal.hasValue_finite y
  constructor
  · intro notX notY h h'
    exact ⟨complement_antitone valueX hx valueY hy h h',
      complement_minimum valueX hx valueY hy h h', complement_maximum valueX hx valueY hy h h'⟩
  · intro least few
    exact complement_complement least hx few

/-- With one digit 0.44 has the complement 0.6, which is less than the complement of 0.3, and the
complement of the smaller one is the larger complement; 0.3 is the complement of its complement. -/
theorem PrefixOp.complement_laws_one_digit :
    let p : Precision := ⟨1, by decide⟩
    let x : FiniteDecimal := ⟨false, 3, -1⟩
    let y : FiniteDecimal := ⟨false, 44, -2⟩
    let notX : Decimal := .finite ⟨false, 7, -1⟩
    let notY : Decimal := .finite ⟨false, 6, -1⟩
    0 ≤ x.toRat ∧ x.toRat ≤ y.toRat ∧ y.toRat ≤ 1 ∧ p.HasDecimals x.toRat ∧
      PrefixOp.complement.apply p (.finite x) = .ok notX ∧
      PrefixOp.complement.apply p (.finite y) = .ok notY ∧
      BinaryOp.lessOrEqual.apply p notY notX = .ok .one ∧
      BinaryOp.minimum.apply p (.finite x) (.finite y) = .ok (.finite x) ∧
      BinaryOp.maximum.apply p notX notY = .ok notX ∧ notX.SameValue notX ∧
      ∃ again, PrefixOp.complement.apply p notX = .ok again ∧ again.SameValue (.finite x) := by
  intro p x y notX notY
  have valueX : x.toRat = 3 / 10 := by norm_num [FiniteDecimal.toRat, signed, x]
  have valueY : y.toRat = 44 / 100 := by norm_num [FiniteDecimal.toRat, signed, y]
  have hx : x.toRat ≤ 1 := by norm_num [valueX]
  have hy : y.toRat ≤ 1 := by norm_num [valueY]
  have least : 0 ≤ x.toRat := by norm_num [valueX]
  have order : x.toRat ≤ y.toRat := by norm_num [valueX, valueY]
  have few : p.HasDecimals x.toRat := Precision.hasDecimals_toRat (by decide)
  have first : PrefixOp.complement.apply p (.finite x) = .ok notX := by decide +kernel
  have second : PrefixOp.complement.apply p (.finite y) = .ok notY := by decide +kernel
  have minimum : BinaryOp.minimum.apply p (.finite x) (.finite y) = .ok (.finite x) := by
    decide +kernel
  have maximum : BinaryOp.maximum.apply p notX notY = .ok notX := by decide +kernel
  obtain ⟨laws, twice⟩ := PrefixOp.complement_laws p x y hx hy
  obtain ⟨reversed, ⟨z, notZ, most, hz, hnotZ, hmost, same⟩, -⟩ := laws notX notY first second
  cases minimum.symm.trans hz
  cases first.symm.trans hnotZ
  cases maximum.symm.trans hmost
  obtain ⟨z, again, hz, hagain, back⟩ := twice least few
  cases first.symm.trans hz
  exact ⟨least, order, hy, few, first, second, reversed order, minimum, maximum, same, again,
    hagain, back⟩

end FuzzyCalc
