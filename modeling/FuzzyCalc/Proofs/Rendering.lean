import FuzzyCalc.Proofs.ExactValue

/-!
# Numbers written and read

A number is written with a minus sign if it has one, with digits, and if its exponent is negative
with a point and decimals; never with an exponent. What is written so is read as the number with the
zeros of a positive exponent multiplied out. So reading takes back what writing did but for these
zeros, writing takes back what reading did, and two numbers are written alike only if they differ in
nothing else. Exponents have limits in what is read, and so in all numbers: within them every number
is one that some text is read as.
-/

namespace FuzzyCalc

namespace Text

/-- A text without blanks stays. -/
theorem trim_eq_self {text : List Char} (h : ∀ c ∈ text, isBlank c = false) : trim text = text := by
  have keeps : ∀ chars : List Char, (∀ c ∈ chars, isBlank c = false) →
      chars.dropWhile isBlank = chars := by
    intro chars plain
    cases chars with
    | nil => rfl
    | cons c rest => exact List.dropWhile_cons_of_neg (by simp [plain c List.mem_cons_self])
  have back : ∀ c ∈ text.reverse, isBlank c = false := by
    intro c hc
    exact h c (List.mem_reverse.mp hc)
  rw [trim, keeps text h, trimEnd, keeps _ back, List.reverse_reverse]

end Text

namespace FiniteDecimal

variable {x y : FiniteDecimal}

/-- Exponent and leading digit are within the limits of full numerals. There are no numbers beyond
them: no text is read as one, and what is computed stays far within. -/
def Readable (x : FiniteDecimal) : Prop :=
  Decimal.leastNumeralExponent ≤ x.exponent ∧ x.leadingExponent ≤ Decimal.largestNumeralExponent

instance : Decidable x.Readable := inferInstanceAs (Decidable (_ ∧ _))

/-- The coefficient of a number, after its sign, with the exponent behind it: a form that keeps
both, in which numbers are only read. -/
def scientific (x : FiniteDecimal) : List Char :=
  (if x.negative then ['-'] else []) ++
    (Digits.write x.coefficient ++ 'E' :: Digits.writeInt x.exponent)

/-! ### The form of a numeral -/

/-- A number is written with digits, and with as many behind a point as its exponent says. -/
theorem exists_unsignedNumeral (x : FiniteDecimal) :
    ∃ whole decimals, (∀ c ∈ whole ++ decimals, Digits.isDigit c = true) ∧ whole ≠ [] ∧
      decimals.length = (-x.exponent).toNat ∧
      x.unsignedNumeral = whole ++ if decimals = [] then [] else '.' :: decimals := by
  cases hexponent : x.exponent with
  | ofNat zeros =>
    obtain ⟨digits, filled, -⟩ := unsignedNumeral_of_ofNat hexponent
    refine ⟨x.unsignedNumeral, [], ?_, filled, ?_, ?_⟩
    · rwa [List.append_nil]
    · simp
    · simp
  | negSucc n =>
    obtain ⟨whole, decimals, point, filled, places, -, hwhole, hdecimals⟩ :=
      exists_insertPoint (fun c ↦ Digits.isDigit_of_mem_write (n := x.coefficient)) (n + 1)
    refine ⟨whole, decimals, ?_, filled, places, ?_⟩
    · intro c hc
      rcases List.mem_append.mp hc with before | behind
      · exact hwhole c before
      · exact hdecimals c behind
    · have some : decimals ≠ [] := List.ne_nil_of_length_eq_add_one places
      rw [if_neg some, ← point, unsignedNumeral, hexponent]

/-- What holds of the digits and of the point holds of all that a number is written with but its
sign. -/
theorem forall_mem_unsignedNumeral {P : Char → Prop} (digits : ∀ d < 10, P (Digits.toChar d))
    (point : P '.') : ∀ c ∈ x.unsignedNumeral, P c := by
  intro c hc
  rcases (unsignedNumeral_spec x).1 c hc with digit | rfl
  · exact Digits.of_isDigit digits digit
  · exact point

/-- The first of these is a digit. -/
theorem exists_unsignedNumeral_eq_cons (x : FiniteDecimal) :
    ∃ c rest, x.unsignedNumeral = c :: rest ∧ Digits.isDigit c = true := by
  obtain ⟨whole, decimals, digits, filled, -, written⟩ := exists_unsignedNumeral x
  obtain ⟨c, rest, rfl⟩ := List.exists_cons_of_ne_nil filled
  exact ⟨c, _, written, digits c List.mem_cons_self⟩

/-- A numeral is a minus sign, if there is one, and what a number is written with but that. -/
theorem numeral_eq (x : FiniteDecimal) :
    x.numeral = (if x.negative then ['-'] else []) ++ x.unsignedNumeral := by
  rw [numeral]
  cases x.negative with
  | false => rfl
  | true => rfl

/-- A numeral tells the sign. -/
theorem minus_mem_numeral : '-' ∈ x.numeral ↔ x.negative = true := by
  have absent : '-' ∉ x.unsignedNumeral := by
    intro present
    exact forall_mem_unsignedNumeral (P := (· ≠ '-')) (by decide) (by decide) '-' present rfl
  rw [numeral_eq]
  cases x.negative with
  | false => simp [absent]
  | true => simp

/-! ### Reading it -/

/-- Numbers of one sign that are alike without it are one number. -/
theorem eq_of_abs_eq (sign : x.negative = y.negative) (h : x.abs = y.abs) : x = y := by
  obtain ⟨negative, coefficient, exponent⟩ := x
  obtain ⟨other, digits, place⟩ := y
  cases sign
  cases h
  rfl

/-- Numbers are written alike just if they are one number with their zeros multiplied out. -/
theorem numeral_eq_iff : x.numeral = y.numeral ↔ x.expanded = y.expanded := by
  constructor
  · intro h
    have sign : x.negative = y.negative := by
      rw [Bool.eq_iff_iff, ← minus_mem_numeral, ← minus_mem_numeral, h]
    -- What follows the sign reads back as the number without it.
    have digits : x.unsignedNumeral = y.unsignedNumeral := by
      rw [numeral_eq, numeral_eq, sign] at h
      exact List.append_cancel_left h
    have magnitude : x.expanded.abs = y.expanded.abs := by
      apply Option.some.inj
      rw [← (unsignedNumeral_spec x).2.2, ← (unsignedNumeral_spec y).2.2, digits]
    exact eq_of_abs_eq (by rw [negative_expanded, negative_expanded, sign]) magnitude
  · intro h
    rw [← numeral_expanded x, h, numeral_expanded]

/-- Multiplying out moves no digit. -/
theorem leadingExponent_expanded (h : x.coefficient ≠ 0) :
    x.expanded.leadingExponent = x.leadingExponent := by
  have nonzero : x.expanded.coefficient ≠ 0 := by
    rwa [ne_eq, ← toRat_eq_zero, toRat_expanded, toRat_eq_zero]
  rw [← log_toRat nonzero, toRat_expanded, log_toRat h]

/-- Multiplied out, a readable number is readable. -/
theorem Readable.expanded (h : x.Readable) : x.expanded.Readable := by
  rcases le_or_gt x.exponent 0 with nonpos | positive
  · rwa [expanded_of_nonpos nonpos]
  · have whole : x.expanded.exponent = 0 := by
      rw [expanded_of_nonneg positive.le]
    refine ⟨by rw [whole]; decide, ?_⟩
    -- The leading digit of a zero is where its exponent is, and that becomes zero.
    by_cases zero : x.coefficient = 0
    · have none : x.expanded.coefficient = 0 := by
        rw [← toRat_eq_zero, toRat_expanded, toRat_eq_zero.mpr zero]
      rw [leadingExponent, whole, none]
      decide
    · rw [leadingExponent_expanded zero]
      exact h.2

end FiniteDecimal

namespace Decimal

variable {x y : FiniteDecimal} {text rest : List Char} {c : Char}

/-- A character that reading neither drops nor replaces. -/
def Verbatim (c : Char) : Prop := Text.isBlank c = false ∧ (c != '_') = true ∧ toAsciiDigit c = c

instance : Decidable (Verbatim c) := inferInstanceAs (Decidable (_ ∧ _))

/-- Digits are read as they stand. -/
theorem verbatim_of_isDigit (h : Digits.isDigit c = true) : Verbatim c :=
  Digits.of_isDigit (by decide) h

/-- A text of such characters is read as it stands. -/
theorem map_filter_trim_eq_self (h : ∀ c ∈ text, Verbatim c) :
    ((Text.trim text).filter (· != '_')).map toAsciiDigit = text := by
  have solid : text.filter (· != '_') = text := List.filter_eq_self.mpr fun c hc ↦ (h c hc).2.1
  rw [Text.trim_eq_self fun c hc ↦ (h c hc).1, solid]
  exact (List.map_congr_left fun c hc ↦ (h c hc).2.2).trans (List.map_id _)

/-- What begins with a digit is no word for what is not finite. -/
theorem readUnsigned?_of_isDigit (negative : Bool) (digit : Digits.isDigit c = true)
    (rest : List Char) : readUnsigned? negative (c :: rest) = readFinite? negative (c :: rest) := by
  obtain ⟨hi, hs, hn⟩ : c.toLower ≠ 'i' ∧ c.toLower ≠ 's' ∧ c.toLower ≠ 'n' :=
    Digits.of_isDigit (P := fun c ↦ c.toLower ≠ 'i' ∧ c.toLower ≠ 's' ∧ c.toLower ≠ 'n')
      (by decide) digit
  have finite : ¬ ((c :: rest).map Char.toLower = "inf".toList ∨
      (c :: rest).map Char.toLower = "infinity".toList) := by
    rintro (word | word)
    · exact hi (List.head_eq_of_cons_eq word)
    · exact hi (List.head_eq_of_cons_eq word)
  have number : readNan? negative ((c :: rest).map Char.toLower) = none := by
    simp [readNan?, hs, hn]
  rw [readUnsigned?, if_neg finite, number, Option.none_or]

/-- A text that begins with a digit, perhaps after a minus sign, is read as a finite number if it is
read as it stands. -/
theorem ofNumeral?_of_verbatim (negative : Bool) (digit : Digits.isDigit c = true)
    (h : ∀ d ∈ rest, Verbatim d) :
    ofNumeral? ((if negative then ['-'] else []) ++ c :: rest) =
      readFinite? negative (c :: rest) := by
  have minus : Verbatim '-' := by decide
  have sign : ∀ d ∈ if negative then ['-'] else [], Verbatim d := by
    cases negative with
    | false => nofun
    | true => simpa using minus
  have verbatim := List.forall_mem_append.mpr
    ⟨sign, List.forall_mem_cons.mpr ⟨verbatim_of_isDigit digit, h⟩⟩
  rw [ofNumeral?, map_filter_trim_eq_self verbatim, ← readUnsigned?_of_isDigit negative digit]
  cases negative with
  | true => rfl
  | false =>
    have unsigned : c ≠ '-' ∧ c ≠ '+' :=
      Digits.of_isDigit (P := fun c ↦ c ≠ '-' ∧ c ≠ '+') (by decide) digit
    simp [unsigned]

/-! ### Without an exponent -/

/-- Digits and a point have no exponent behind them. -/
theorem readFinite?_unsignedNumeral (x : FiniteDecimal) :
    readFinite? x.negative x.unsignedNumeral =
      if x.expanded.Readable then some (.finite x.expanded) else none := by
  have unmarked : ∀ c ∈ x.unsignedNumeral, (!(c == 'e' || c == 'E')) = true :=
    FiniteDecimal.forall_mem_unsignedNumeral (P := fun c ↦ (!(c == 'e' || c == 'E')) = true)
      (by decide) (by decide)
  have restored : (⟨x.negative, x.expanded.abs.coefficient, x.expanded.abs.exponent + 0⟩ :
      FiniteDecimal) = x.expanded := by
    rw [Int.add_zero, ← x.negative_expanded]
    rfl
  simp only [readFinite?, List.takeWhile_eq_self_iff.mpr unmarked,
    List.dropWhile_eq_nil_iff.mpr unmarked, (FiniteDecimal.unsignedNumeral_spec x).2.2]
  conv_rhs => rw [← restored]
  rfl

/-- A numeral is read as the number that it was written for, multiplied out, if that is within the
limits. -/
theorem ofNumeral?_numeral (x : FiniteDecimal) :
    ofNumeral? x.numeral = if x.expanded.Readable then some (.finite x.expanded) else none := by
  have verbatim : ∀ c ∈ x.unsignedNumeral, Verbatim c :=
    FiniteDecimal.forall_mem_unsignedNumeral (by decide) (by decide)
  rw [← readFinite?_unsignedNumeral, FiniteDecimal.numeral_eq]
  obtain ⟨c, rest, first, digit⟩ := x.exists_unsignedNumeral_eq_cons
  rw [first] at verbatim ⊢
  exact ofNumeral?_of_verbatim x.negative digit (List.forall_mem_cons.mp verbatim).2

/-! ### With one -/

/-- An integer is read back from its digits and its sign. -/
theorem readSigned?_writeInt (n : Int) : readSigned? (Digits.writeInt n) = some n := by
  have digits : ∀ c ∈ Digits.write n.natAbs, Digits.isDigit c = true := by
    intro c hc
    exact Digits.isDigit_of_mem_write hc
  have filled := Digits.write_ne_nil n.natAbs
  unfold Digits.writeInt
  split
  · next below =>
    have all : (Digits.write n.natAbs).all Digits.isDigit = true := List.all_eq_true.mpr digits
    simp [readSigned?, filled, all, Digits.read_write, abs_of_neg below]
  · next above =>
    rw [readSigned?_digits digits filled, Digits.read_write, Int.natAbs_of_nonneg (by omega)]

/-- Digits before an exponent are read as the coefficient, if that is within the limits. -/
theorem readFinite?_exponent (x : FiniteDecimal) :
    readFinite? x.negative (Digits.write x.coefficient ++ 'E' :: Digits.writeInt x.exponent) =
      if x.Readable then some (.finite x) else none := by
  have digits : ∀ c ∈ Digits.write x.coefficient, Digits.isDigit c = true := by
    intro c hc
    exact Digits.isDigit_of_mem_write hc
  have unmarked : ∀ c ∈ Digits.write x.coefficient, (!(c == 'e' || c == 'E')) = true := by
    intro c hc
    exact Digits.of_isDigit (P := fun c ↦ (!(c == 'e' || c == 'E')) = true) (by decide)
      (digits c hc)
  have whole : (Digits.write x.coefficient ++ 'E' :: Digits.writeInt x.exponent).takeWhile
      (fun c ↦ !(c == 'e' || c == 'E')) = Digits.write x.coefficient := by
    rw [List.takeWhile_append_of_pos unmarked, List.takeWhile_cons_of_neg (by decide),
      List.append_nil]
  have behind : (Digits.write x.coefficient ++ 'E' :: Digits.writeInt x.exponent).dropWhile
      (fun c ↦ !(c == 'e' || c == 'E')) = 'E' :: Digits.writeInt x.exponent := by
    rw [List.dropWhile_append_of_pos unmarked, List.dropWhile_cons_of_neg (by decide)]
  have restored : (⟨x.negative, x.coefficient, 0 + x.exponent⟩ : FiniteDecimal) = x := by
    rw [Int.zero_add]
  simp only [readFinite?, whole, behind, readSigned?_writeInt, Digits.read_write,
    FiniteDecimal.ofPlainNumeral?_digits digits (Digits.write_ne_nil _)]
  conv_rhs => rw [← restored]
  rfl

/-- An integer is written with characters that are read as they stand. -/
theorem verbatim_of_mem_writeInt {n : Int} : ∀ d ∈ Digits.writeInt n, Verbatim d := by
  have digits : ∀ d ∈ Digits.write n.natAbs, Verbatim d := by
    intro d hd
    exact verbatim_of_isDigit (Digits.isDigit_of_mem_write hd)
  unfold Digits.writeInt
  split
  · exact List.forall_mem_cons.mpr ⟨by decide, digits⟩
  · exact digits

/-- A number within the limits is read from its digits and its exponent as it is. -/
theorem ofNumeral?_scientific (x : FiniteDecimal) :
    ofNumeral? x.scientific = if x.Readable then some (.finite x) else none := by
  have verbatim : ∀ d ∈ Digits.write x.coefficient ++ 'E' :: Digits.writeInt x.exponent,
      Verbatim d := by
    refine List.forall_mem_append.mpr ⟨?_, List.forall_mem_cons.mpr ⟨by decide, ?_⟩⟩
    · intro d hd
      exact verbatim_of_isDigit (Digits.isDigit_of_mem_write hd)
    · exact verbatim_of_mem_writeInt
  rw [← readFinite?_exponent, FiniteDecimal.scientific]
  obtain ⟨c, rest, first⟩ := List.exists_cons_of_ne_nil (Digits.write_ne_nil x.coefficient)
  have digit : Digits.isDigit c = true := by
    apply Digits.isDigit_of_mem_write (n := x.coefficient)
    rw [first]
    exact List.mem_cons_self
  rw [first] at verbatim ⊢
  exact ofNumeral?_of_verbatim x.negative digit (List.forall_mem_cons.mp verbatim).2

/-! ### The limits -/

/-- What is read as a finite number, sign apart, is readable. -/
theorem readable_of_readFinite? {negative : Bool}
    (h : readFinite? negative text = some (.finite x)) : x.Readable := by
  have guarded (y : FiniteDecimal)
      (h : (if y.Readable then some (Decimal.finite y) else none) = some (.finite x)) :
      x.Readable := by
    split at h
    · next readable =>
      cases h
      exact readable
    · cases h
  unfold readFinite? at h
  obtain ⟨plain, -, h⟩ := Option.bind_eq_some_iff.mp h
  dsimp only at h
  split at h
  · exact guarded ⟨negative, plain.coefficient, plain.exponent + 0⟩ h
  · obtain ⟨shift, -, h⟩ := Option.bind_eq_some_iff.mp h
    exact guarded ⟨negative, plain.coefficient, plain.exponent + shift⟩ h

/-- The words for what is not a number are not read as a finite number. -/
theorem readNan?_ne_finite (negative : Bool) (text : List Char) (x : FiniteDecimal) :
    readNan? negative text ≠ some (.finite x) := by
  intro h
  unfold readNan? at h
  dsimp only at h
  split at h
  · split at h
    · cases h
    · cases h
  · cases h

/-- Neither are the words for what is infinite: what is read so is readable. -/
theorem readable_of_readUnsigned? {negative : Bool}
    (h : readUnsigned? negative text = some (.finite x)) : x.Readable := by
  unfold readUnsigned? at h
  dsimp only at h
  split at h
  · cases h
  · rcases Option.or_eq_some_iff.mp h with word | ⟨-, number⟩
    · exact absurd word (readNan?_ne_finite _ _ _)
    · exact readable_of_readFinite? number

/-- Whatever text is read as a finite number, that number is readable. -/
theorem readable_of_ofNumeral? (h : ofNumeral? text = some (.finite x)) : x.Readable := by
  unfold ofNumeral? at h
  split at h
  · exact readable_of_readUnsigned? h
  · exact readable_of_readUnsigned? h
  · exact readable_of_readUnsigned? h

/-- The readable numbers are those that some text is read as: there are no others. -/
theorem readable_iff : x.Readable ↔ ∃ text, ofNumeral? text = some (.finite x) := by
  constructor
  · intro h
    exact ⟨x.scientific, by rw [ofNumeral?_scientific, if_pos h]⟩
  · rintro ⟨text, h⟩
    exact readable_of_ofNumeral? h

/-- A number is written with a minus sign if it has one, with digits, and if its exponent is
negative with a point and that many digits more, but never with an exponent. A readable number, and
there are no others to be had, is read back: as itself if its exponent is not positive, and
otherwise as the number of the same sign that has no exponent but all the zeros as digits. Written
again, it is the same numeral. Two numbers are written alike just if they are one with their zeros
multiplied out. -/
theorem numerals_read_back (x y : FiniteDecimal) (h : x.Readable) :
    (∃ whole decimals, (∀ c ∈ whole ++ decimals, Digits.isDigit c = true) ∧ whole ≠ [] ∧
      decimals.length = (-x.exponent).toNat ∧
      x.numeral = (if x.negative then ['-'] else []) ++ whole ++
        if decimals = [] then [] else '.' :: decimals) ∧
    ofNumeral? x.numeral = some (.finite x.expanded) ∧
    (x.exponent ≤ 0 → x.expanded = x) ∧
    (0 < x.exponent → x.expanded =
      ⟨x.negative, x.coefficient * Digits.tenTo x.exponent.toNat, 0⟩) ∧
    (ofNumeral? x.numeral).map Decimal.numeral = some x.numeral ∧
    (x.numeral = y.numeral ↔ x.expanded = y.expanded) := by
  have reads : ofNumeral? x.numeral = some (.finite x.expanded) := by
    rw [ofNumeral?_numeral, if_pos h.expanded]
  refine ⟨?form, reads, FiniteDecimal.expanded_of_nonpos, ?positive, ?again,
    FiniteDecimal.numeral_eq_iff⟩
  case form =>
    obtain ⟨whole, decimals, digits, filled, places, written⟩ := x.exists_unsignedNumeral
    refine ⟨whole, decimals, digits, filled, places, ?_⟩
    rw [FiniteDecimal.numeral_eq, written, List.append_assoc]
  case positive => exact fun positive ↦ FiniteDecimal.expanded_of_nonneg positive.le
  case again =>
    rw [reads, Option.map_some, Decimal.numeral, FiniteDecimal.numeral_expanded]

/-- A negative number with three decimals, written with a zero in front of the point, is read back
as it is; two digits with three zeros to come are read back as five digits. -/
theorem numerals_read_back_decimals :
    let x : FiniteDecimal := ⟨true, 50, -3⟩
    let y : FiniteDecimal := ⟨false, 12, 3⟩
    x.Readable ∧ y.Readable ∧ x.numeral = "-0.050".toList ∧ y.numeral = "12000".toList ∧
      ofNumeral? x.numeral = some (.finite x) ∧
      ofNumeral? y.numeral = some (.finite ⟨false, 12000, 0⟩) ∧
      y.numeral = (FiniteDecimal.mk false 1200 1).numeral := by
  intro x y
  have hx : x.Readable := by decide +kernel
  have hy : y.Readable := by decide +kernel
  obtain ⟨-, reads, small, -⟩ := numerals_read_back x y hx
  obtain ⟨-, readsLarge, -, large, -, alike⟩ := numerals_read_back y ⟨false, 1200, 1⟩ hy
  refine ⟨hx, hy, by decide +kernel, by decide +kernel, ?_, ?_, alike.mpr (by decide)⟩
  · rw [reads, small (by decide)]
  · rw [readsLarge, large (by decide)]
    decide +kernel

end Decimal

end FuzzyCalc
