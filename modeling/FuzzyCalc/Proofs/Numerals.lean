import Mathlib.Algebra.Order.Field.Rat
import Mathlib.Data.List.TakeWhile
import FuzzyCalc.Decimal.Digits.Lemmas
import FuzzyCalc.Decimal.Numeral

/-!
# Numerals read back

Numerals have no exponent, so writing a number multiplies out a positive one; otherwise it keeps
every digit. A plain numeral read back is the number with its zeros multiplied out: the same value,
and the very same number if its exponent was not positive.
-/

namespace FuzzyCalc

namespace Digits

/-- Zeros count nothing. -/
theorem read_replicate_zero (k : Nat) : read (List.replicate k '0') = 0 := by
  induction k with
  | zero => rfl
  | succ k ih => rw [List.replicate_succ, read_cons, ih]; simp [value]

/-- Leading zeros add nothing. -/
theorem read_zeros_append (k : Nat) (digits : List Char) :
    read (List.replicate k '0' ++ digits) = read digits := by
  rw [read_append, read_replicate_zero, Nat.zero_mul, Nat.zero_add]

/-- Trailing zeros multiply. -/
theorem read_append_zeros (digits : List Char) (k : Nat) :
    read (digits ++ List.replicate k '0') = read digits * tenTo k := by
  rw [read_append, read_replicate_zero, List.length_replicate, Nat.add_zero]

/-- Zeros are digits. -/
theorem isDigit_of_mem_replicate {k : Nat} {c : Char} (h : c ∈ List.replicate k '0') :
    isDigit c = true := by
  rw [List.eq_of_mem_replicate h]
  rfl

/-- The value of a digit is below ten. -/
theorem value_lt_ten {c : Char} (h : isDigit c = true) : value c < 10 := by
  obtain ⟨-, hle⟩ := Bool.and_eq_true_iff.mp h
  have code : c.toNat ≤ '9'.toNat := of_decide_eq_true hle
  have nine : '9'.toNat = 57 := rfl
  rw [value]
  omega

/-- A digit is the character of its value. -/
theorem toChar_value {c : Char} (h : isDigit c = true) : toChar (value c) = c := by
  have small := value_lt_ten h
  obtain ⟨hge, -⟩ := Bool.and_eq_true_iff.mp h
  have code : '0'.toNat ≤ c.toNat := of_decide_eq_true hge
  have zero : '0'.toNat = 48 := rfl
  rw [toChar, Nat.mod_eq_of_lt small, value, Nat.add_sub_cancel' (by omega), Char.ofNat_toNat]

/-- What holds of the ten digits holds of every digit. -/
theorem of_isDigit {P : Char → Prop} (h : ∀ d < 10, P (toChar d)) {c : Char}
    (hc : isDigit c = true) : P c := by
  rw [← toChar_value hc]
  exact h _ (value_lt_ten hc)

/-- Digits denote a number with no more digits. -/
theorem read_lt_tenTo {digits : List Char} (hd : ∀ c ∈ digits, isDigit c = true) :
    read digits < tenTo digits.length := by
  induction digits with
  | nil => exact Nat.one_pos
  | cons c rest ih =>
    obtain ⟨hc, hrest⟩ := List.forall_mem_cons.mp hd
    have small := value_lt_ten hc
    have later := ih hrest
    rw [read_cons, List.length_cons, tenTo_succ]
    calc value c * tenTo rest.length + read rest
        < value c * tenTo rest.length + tenTo rest.length := Nat.add_lt_add_left later _
      _ = (value c + 1) * tenTo rest.length := (Nat.succ_mul _ _).symm
      _ ≤ 10 * tenTo rest.length := Nat.mul_le_mul_right _ (by omega)
      _ = tenTo rest.length * 10 := Nat.mul_comm _ _

/-- The first digit is what is left without the others. -/
theorem read_cons_div {c : Char} {rest : List Char} (hd : ∀ d ∈ rest, isDigit d = true) :
    read (c :: rest) / tenTo rest.length = value c := by
  rw [read_cons, Nat.add_comm, Nat.add_mul_div_right _ _ (tenTo_pos _),
    Nat.div_eq_of_lt (read_lt_tenTo hd), Nat.zero_add]

/-- Equally many digits that denote one number are the same. -/
theorem eq_of_read_eq {digits others : List Char} (hd : ∀ c ∈ digits, isDigit c = true)
    (ho : ∀ c ∈ others, isDigit c = true) (length : digits.length = others.length)
    (h : read digits = read others) : digits = others := by
  induction digits generalizing others with
  | nil => exact (List.length_eq_zero_iff.mp length.symm).symm
  | cons c rest ih =>
    obtain ⟨d, later, rfl⟩ := List.exists_cons_of_length_eq_add_one length.symm
    obtain ⟨hc, hrest⟩ := List.forall_mem_cons.mp hd
    obtain ⟨hd', hlater⟩ := List.forall_mem_cons.mp ho
    have same : rest.length = later.length := Nat.succ.inj length
    have first : value c = value d := by
      rw [← read_cons_div hrest, ← read_cons_div hlater, same, h]
    rw [read_cons, read_cons, same, first] at h
    rw [← toChar_value hc, first, toChar_value hd', ih hrest hlater same (Nat.add_left_cancel h)]

/-- Digits that do not begin with a zero denote a number with as many digits. -/
theorem tenTo_le_read {c : Char} {rest : List Char} (hd : isDigit c = true) (hc : c ≠ '0') :
    tenTo rest.length ≤ read (c :: rest) := by
  have positive : 1 ≤ value c := by
    refine Nat.one_le_iff_ne_zero.mpr fun hzero ↦ hc ?_
    rw [← toChar_value hd, hzero]
    rfl
  rw [read_cons]
  calc tenTo rest.length = 1 * tenTo rest.length := (Nat.one_mul _).symm
    _ ≤ value c * tenTo rest.length := Nat.mul_le_mul_right _ positive
    _ ≤ value c * tenTo rest.length + read rest := Nat.le_add_right _ _

/-- A positive number is not written with a zero in front. -/
theorem exists_write_eq_cons {n : Nat} (h : 0 < n) :
    ∃ d later, write n = d :: later ∧ d ≠ '0' := by
  rw [write]
  split
  · next empty =>
    have zero := read_dropWhile_zero (block (blockSize n) n [])
    rw [empty, read_block, Nat.mod_eq_of_lt (lt_tenTo_blockSize n)] at zero
    change 0 = n * 1 + 0 at zero
    omega
  · next hne =>
    obtain ⟨d, later, heq⟩ := List.exists_cons_of_ne_nil hne
    refine ⟨d, later, heq, ?_⟩
    have stopped := List.head_dropWhile_not (· == '0') hne
    simp only [heq, List.head_cons] at stopped
    simpa using stopped

/-- Digits that do not begin with a zero are those that their number is written with. -/
theorem write_read {c : Char} {rest : List Char} (hd : ∀ d ∈ c :: rest, isDigit d = true)
    (hc : c ≠ '0') : write (read (c :: rest)) = c :: rest := by
  have least : tenTo rest.length ≤ read (c :: rest) :=
    tenTo_le_read (hd c List.mem_cons_self) hc
  have most := read_lt_tenTo hd
  obtain ⟨d, later, heq, hne⟩ := exists_write_eq_cons (Nat.lt_of_lt_of_le (tenTo_pos _) least)
  have written : ∀ e ∈ d :: later, isDigit e = true := by
    intro e he
    rw [← heq] at he
    exact isDigit_of_mem_write he
  have value := read_write (read (c :: rest))
  rw [heq] at value ⊢
  have otherLeast : tenTo later.length ≤ read (d :: later) :=
    tenTo_le_read (written d List.mem_cons_self) hne
  have otherMost := read_lt_tenTo written
  rw [value] at otherLeast otherMost
  have notLonger := (Nat.pow_lt_pow_iff_right (by decide)).mp (Nat.lt_of_le_of_lt otherLeast most)
  have notShorter := (Nat.pow_lt_pow_iff_right (by decide)).mp (Nat.lt_of_le_of_lt least otherMost)
  rw [List.length_cons] at notLonger notShorter
  exact eq_of_read_eq written hd (by rw [List.length_cons, List.length_cons]; omega) value

/-- Digits behind a positive number are written behind it. -/
theorem write_append {n : Nat} (h : 0 < n) {digits : List Char}
    (hd : ∀ c ∈ digits, isDigit c = true) :
    write (n * tenTo digits.length + read digits) = write n ++ digits := by
  obtain ⟨d, later, heq, hne⟩ := exists_write_eq_cons h
  have written : ∀ e ∈ d :: (later ++ digits), isDigit e = true := by
    rw [← List.cons_append, ← heq]
    intro e he
    rcases List.mem_append.mp he with front | behind
    · exact isDigit_of_mem_write front
    · exact hd e behind
  have value := read_append (write n) digits
  rw [read_write, heq, List.cons_append] at value
  rw [← value, write_read written hne, heq, List.cons_append]

/-- Zeros behind a positive number are written behind it. -/
theorem write_mul_tenTo {n : Nat} (h : 0 < n) (k : Nat) :
    write (n * tenTo k) = write n ++ List.replicate k '0' := by
  have zeros := write_append h fun _ ↦ isDigit_of_mem_replicate (k := k)
  rwa [List.length_replicate, read_replicate_zero, Nat.add_zero] at zeros

/-- Numbers are written as the standard library writes them. -/
theorem write_eq_toDigits (n : Nat) : write n = Nat.toDigits 10 n := by
  induction n using Nat.strongRecOn with
  | ind n ih =>
    rw [Nat.toDigits_eq_if (by decide)]
    split
    · next small =>
      have digit : ∀ d < 10, write d = [d.digitChar] := by decide
      exact digit n small
    · next large =>
      -- The last digit comes off the end.
      have last : ∀ d < 10, toChar d = d.digitChar := by decide
      have remainder : n % 10 < 10 := Nat.mod_lt n (by decide)
      have behind : ∀ c ∈ [toChar (n % 10)], isDigit c = true := by
        intro c hc
        rw [List.mem_singleton.mp hc]
        exact isDigit_toChar _
      have value : n / 10 * tenTo 1 + read [toChar (n % 10)] = n := by
        rw [read_cons, value_toChar, Nat.mod_mod]
        change n / 10 * 10 + (n % 10 * 1 + 0) = n
        omega
      calc write n = write (n / 10) ++ [toChar (n % 10)] := by
            conv_lhs => rw [← value]
            exact write_append (by omega) behind
        _ = Nat.toDigits 10 (n / 10) ++ [(n % 10).digitChar] := by
            rw [ih (n / 10) (by omega), last _ remainder]

end Digits

namespace FiniteDecimal

/-- The exact value. -/
def toRat (x : FiniteDecimal) : ℚ := x.signed * 10 ^ x.exponent

/-- The number with the zeros of a positive exponent multiplied out. -/
def expanded (x : FiniteDecimal) : FiniteDecimal :=
  match x.exponent with
  | .ofNat zeros => ⟨x.negative, x.coefficient * Digits.tenTo zeros, 0⟩
  | .negSucc _ => x

/-- Without a positive exponent nothing is multiplied out. -/
theorem expanded_of_nonpos {x : FiniteDecimal} (h : x.exponent ≤ 0) : x.expanded = x := by
  obtain ⟨negative, coefficient, exponent⟩ := x
  match exponent with
  | .ofNat 0 => simp [expanded, Digits.tenTo]
  | .ofNat (zeros + 1) => exact absurd h (by simp)
  | .negSucc n => rfl

/-- Otherwise the zeros become digits. -/
theorem expanded_of_nonneg {x : FiniteDecimal} (h : 0 ≤ x.exponent) :
    x.expanded = ⟨x.negative, x.coefficient * Digits.tenTo x.exponent.toNat, 0⟩ := by
  obtain ⟨zeros, hzeros⟩ := Int.eq_ofNat_of_zero_le h
  rw [expanded, hzeros]
  rfl

/-- Multiplying out does not change the sign. -/
@[simp] theorem negative_expanded (x : FiniteDecimal) : x.expanded.negative = x.negative := by
  unfold expanded
  split
  · rfl
  · rfl

/-- Multiplying out does not change the value. -/
theorem toRat_expanded (x : FiniteDecimal) : x.expanded.toRat = x.toRat := by
  obtain ⟨negative, coefficient, exponent⟩ := x
  match exponent with
  | .negSucc n => rfl
  | .ofNat zeros =>
    have signs : (FiniteDecimal.mk negative (coefficient * Digits.tenTo zeros) 0).signed =
        (FiniteDecimal.mk negative coefficient (.ofNat zeros)).signed * (10 : Int) ^ zeros := by
      have power : ((Digits.tenTo zeros : Nat) : Int) = (10 : Int) ^ zeros := Nat.cast_pow 10 zeros
      cases negative with
      | false => simp [signed, power]
      | true => simp [signed, power]
    change ((FiniteDecimal.mk negative (coefficient * Digits.tenTo zeros) 0).signed : ℚ) *
      10 ^ (0 : Int) = _ * 10 ^ (zeros : Int)
    rw [signs]
    push_cast
    rw [mul_one, zpow_natCast]

/-- Multiplying out does not change the numeral. -/
theorem numeral_expanded (x : FiniteDecimal) : x.expanded.numeral = x.numeral := by
  have digits : x.expanded.unsignedNumeral = x.unsignedNumeral := by
    cases hexponent : x.exponent with
    | negSucc n => rw [expanded, hexponent]
    | ofNat zeros =>
      by_cases hzero : x.coefficient = 0
      · simp [expanded, unsignedNumeral, hexponent, isZero, hzero]
      · have positive : x.coefficient * Digits.tenTo zeros ≠ 0 :=
          Nat.mul_ne_zero hzero (Nat.ne_of_gt (Digits.tenTo_pos zeros))
        have written := Digits.write_mul_tenTo (Nat.pos_of_ne_zero hzero) zeros
        simp only [expanded, unsignedNumeral, hexponent, isZero, beq_iff_eq, hzero, if_false]
        rw [if_neg positive, written, List.replicate_zero, List.append_nil]
  rw [numeral, numeral, digits, negative_expanded]

/-! ### Reading plain numerals -/

/-- A run of digits alone is a plain numeral. -/
theorem ofPlainNumeral?_digits {digits : List Char} (hd : ∀ c ∈ digits, Digits.isDigit c = true)
    (hne : digits ≠ []) : ofPlainNumeral? digits = some ⟨false, Digits.read digits, 0⟩ := by
  have whole : digits.takeWhile Digits.isDigit = digits := List.takeWhile_eq_self_iff.mpr hd
  have rest : digits.dropWhile Digits.isDigit = [] := List.dropWhile_eq_nil_iff.mpr hd
  unfold ofPlainNumeral?
  rw [whole, rest]
  simp [hne]

/-- Digits before a point are read together with what stands behind it, if that is digits alone and
there is a digit on either side. -/
theorem ofPlainNumeral?_at_point {whole decimals : List Char}
    (hw : ∀ c ∈ whole, Digits.isDigit c = true) :
    ofPlainNumeral? (whole ++ '.' :: decimals) =
      if decimals.all Digits.isDigit && !(whole.isEmpty && decimals.isEmpty) then
        some ⟨false, Digits.read (whole ++ decimals), -decimals.length⟩
      else none := by
  have point : ¬ Digits.isDigit '.' = true := by decide
  have first : (whole ++ '.' :: decimals).takeWhile Digits.isDigit = whole := by
    rw [List.takeWhile_append_of_pos hw, List.takeWhile_cons_of_neg point, List.append_nil]
  have rest : (whole ++ '.' :: decimals).dropWhile Digits.isDigit = '.' :: decimals := by
    rw [List.dropWhile_append_of_pos hw, List.dropWhile_cons_of_neg point]
  unfold ofPlainNumeral?
  rw [first, rest]
  rfl

/-- Digits, a point and digits are a plain numeral. -/
theorem ofPlainNumeral?_point {whole decimals : List Char}
    (hw : ∀ c ∈ whole, Digits.isDigit c = true) (hd : ∀ c ∈ decimals, Digits.isDigit c = true)
    (hne : whole ≠ []) :
    ofPlainNumeral? (whole ++ '.' :: decimals) =
      some ⟨false, Digits.read (whole ++ decimals), -decimals.length⟩ := by
  have digits : decimals.all Digits.isDigit = true := List.all_eq_true.mpr hd
  simp [ofPlainNumeral?_at_point hw, digits, hne]

/-! ### Writing them -/

/-- A point is put between digits, with one before it at least. -/
theorem exists_insertPoint {digits : List Char} (hd : ∀ c ∈ digits, Digits.isDigit c = true)
    (places : Nat) :
    ∃ whole decimals, insertPoint places digits = whole ++ '.' :: decimals ∧ whole ≠ [] ∧
      decimals.length = places ∧ Digits.read (whole ++ decimals) = Digits.read digits ∧
      (∀ c ∈ whole, Digits.isDigit c = true) ∧ ∀ c ∈ decimals, Digits.isDigit c = true := by
  generalize hpadded : List.replicate (places + 1 - digits.length) '0' ++ digits = padded
  have length : places + 1 ≤ padded.length := by
    rw [← hpadded, List.length_append, List.length_replicate]
    omega
  have padding : ∀ c ∈ padded, Digits.isDigit c = true := by
    intro c hc
    rw [← hpadded] at hc
    rcases List.mem_append.mp hc with zero | digit
    · exact Digits.isDigit_of_mem_replicate zero
    · exact hd c digit
  refine ⟨padded.take (padded.length - places), padded.drop (padded.length - places), ?_, ?_, ?_,
    ?_, fun c hc ↦ padding c (List.mem_of_mem_take hc),
    fun c hc ↦ padding c (List.mem_of_mem_drop hc)⟩
  · rw [← hpadded]
    rfl
  · intro empty
    have none := congrArg List.length empty
    rw [List.length_take, List.length_nil] at none
    omega
  · rw [List.length_drop]
    omega
  · rw [List.take_append_drop, ← hpadded, Digits.read_zeros_append]

/-- Without a negative exponent the numeral has no point: it is the digits and the zeros. A zero is
written with one digit, whatever its exponent. -/
theorem unsignedNumeral_of_ofNat {x : FiniteDecimal} {zeros : Nat} (h : x.exponent = .ofNat zeros) :
    (∀ c ∈ x.unsignedNumeral, Digits.isDigit c = true) ∧ x.unsignedNumeral ≠ [] ∧
      Digits.read x.unsignedNumeral = x.coefficient * Digits.tenTo zeros := by
  simp only [unsignedNumeral, h]
  split
  · next zero =>
    have none : x.coefficient = 0 := by simpa [isZero] using zero
    rw [Digits.read_write, none, Nat.zero_mul]
    exact ⟨fun c ↦ Digits.isDigit_of_mem_write, Digits.write_ne_nil 0, rfl⟩
  · rw [Digits.read_append_zeros, Digits.read_write]
    refine ⟨?_, by simp [Digits.write_ne_nil], rfl⟩
    intro c hc
    rcases List.mem_append.mp hc with digit | zero
    · exact Digits.isDigit_of_mem_write digit
    · exact Digits.isDigit_of_mem_replicate zero

/-- The numeral without a sign is digits, and perhaps a point and digits; it reads back as the
number without its sign, multiplied out. -/
theorem unsignedNumeral_spec (x : FiniteDecimal) :
    (∀ c ∈ x.unsignedNumeral, Digits.isDigit c = true ∨ c = '.') ∧ x.unsignedNumeral ≠ [] ∧
      ofPlainNumeral? x.unsignedNumeral = some x.expanded.abs := by
  cases hexponent : x.exponent with
  | ofNat zeros =>
    obtain ⟨hdigits, hne, hread⟩ := unsignedNumeral_of_ofNat hexponent
    refine ⟨fun c hc ↦ .inl (hdigits c hc), hne, ?_⟩
    rw [ofPlainNumeral?_digits hdigits hne, hread, expanded, hexponent]
    rfl
  | negSucc n =>
    obtain ⟨whole, decimals, hinsert, hne, hlength, hread, hwhole, hdecimals⟩ :=
      exists_insertPoint (fun c ↦ Digits.isDigit_of_mem_write (n := x.coefficient)) (n + 1)
    have numeral : x.unsignedNumeral = whole ++ '.' :: decimals := by
      rw [← hinsert, unsignedNumeral, hexponent]
    rw [numeral]
    refine ⟨?_, by simp, ?_⟩
    · intro c hc
      rcases List.mem_append.mp hc with digit | rest
      · exact .inl (hwhole c digit)
      · rcases List.mem_cons.mp rest with point | digit
        · exact .inr point
        · exact .inl (hdecimals c digit)
    · rw [ofPlainNumeral?_point hwhole hdecimals hne, hread, Digits.read_write, hlength, expanded,
        hexponent, abs, hexponent]
      rfl

/-- A number without a minus sign is written without a sign. -/
theorem numeral_of_negative {x : FiniteDecimal} (h : x.negative = false) :
    x.numeral = x.unsignedNumeral := by
  rw [numeral, h]
  rfl

/-- A number without a minus sign reads back as itself, multiplied out. -/
theorem ofPlainNumeral?_numeral {x : FiniteDecimal} (h : x.negative = false) :
    ofPlainNumeral? x.numeral = some x.expanded := by
  have positive : x.expanded.abs = x.expanded := by
    rw [abs, ← h, ← x.negative_expanded]
  rw [numeral_of_negative h, (unsignedNumeral_spec x).2.2, positive]

end FiniteDecimal

/-- Digits alone are read as the number that they denote. -/
theorem Decimal.readSigned?_digits {digits : List Char}
    (hd : ∀ c ∈ digits, Digits.isDigit c = true) (hne : digits ≠ []) :
    readSigned? digits = some (Digits.read digits : Int) := by
  obtain ⟨c, rest, rfl⟩ := List.exists_cons_of_ne_nil hne
  have unsigned : c ≠ '-' ∧ c ≠ '+' :=
    Digits.of_isDigit (P := fun c ↦ c ≠ '-' ∧ c ≠ '+') (by decide) (hd c List.mem_cons_self)
  simpa [readSigned?, unsigned] using hd

end FuzzyCalc
