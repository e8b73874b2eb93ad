import FuzzyCalc.Decimal.Digits

/-!
# Laws of decimal digits

The count of digits is the least power of ten above a number; written digits read back as the number
that they were written for; reading a text in two parts is reading the first, shifted, and the
second.
-/

namespace FuzzyCalc.Digits

/-- Zeros add up. -/
theorem tenTo_add (m n : Nat) : tenTo (m + n) = tenTo m * tenTo n := Nat.pow_add 10 m n

/-- One more zero is ten times as much. -/
theorem tenTo_succ (n : Nat) : tenTo (n + 1) = tenTo n * 10 := rfl

/-- A power of ten is positive. -/
theorem tenTo_pos (n : Nat) : 0 < tenTo n := Nat.pow_pos (by decide)

/-- More zeros are more. -/
theorem tenTo_le_tenTo {m n : Nat} (h : m ≤ n) : tenTo m ≤ tenTo n :=
  Nat.pow_le_pow_right (by decide) h

/-- A block is two blocks of the next smaller size. -/
theorem blockLength_succ (k : Nat) : blockLength (k + 1) = blockLength k + blockLength k :=
  Nat.mul_two _

/-- A number fits into a block of its size. -/
theorem lt_tenTo_blockSize (n : Nat) : n < tenTo (blockLength (blockSize n)) :=
  calc n < Nat.pow 2 (n.log2 + 1) := Nat.lt_log2_self
    _ ≤ Nat.pow 2 (blockLength (blockSize n)) :=
      Nat.pow_le_pow_right (by decide) (Nat.lt_log2_self (n := n.log2))
    _ ≤ tenTo (blockLength (blockSize n)) := Nat.pow_le_pow_left (by decide) _

/-- The digits of a number that fits into a block are counted right: with one digit fewer there is
no room for it. -/
theorem countWithin_spec (k n : Nat) (h : n < tenTo (blockLength k)) :
    0 < countWithin k n ∧ n < tenTo (countWithin k n) ∧
      (0 < n → tenTo (countWithin k n - 1) ≤ n) := by
  induction k generalizing n with
  | zero => exact ⟨Nat.one_pos, h, fun positive ↦ positive⟩
  | succ k ih =>
    rw [blockLength_succ, tenTo_add] at h
    simp only [countWithin]
    split
    · next small => exact ih n small
    · next large =>
      have half := tenTo_pos (blockLength k)
      have positive : 0 < n / tenTo (blockLength k) := Nat.div_pos (by omega) half
      obtain ⟨hpos, hlt, hle⟩ := ih _ (Nat.div_lt_of_lt_mul h)
      refine ⟨by omega, ?_, fun _ ↦ ?_⟩
      · rw [tenTo_add, Nat.mul_comm]
        exact (Nat.div_lt_iff_lt_mul half).mp hlt
      · rw [Nat.add_sub_assoc hpos, tenTo_add]
        exact Nat.le_trans (Nat.mul_le_mul_left _ (hle positive)) (Nat.mul_div_le _ _)

/-- A number has at least one digit. -/
theorem count_pos (n : Nat) : 0 < count n := (countWithin_spec _ n (lt_tenTo_blockSize n)).1

/-- A number has no more digits than are counted. -/
theorem lt_tenTo_count (n : Nat) : n < tenTo (count n) :=
  (countWithin_spec _ n (lt_tenTo_blockSize n)).2.1

/-- A positive number has no fewer digits than are counted. -/
theorem tenTo_count_le {n : Nat} (h : 0 < n) : tenTo (count n - 1) ≤ n :=
  (countWithin_spec _ n (lt_tenTo_blockSize n)).2.2 h

/-- What is left after taking zeros off, with the zeros put back, is the number. -/
theorem stripWithin_mul (k limit n : Nat) :
    (stripWithin k limit n).1 * tenTo (stripWithin k limit n).2 = n := by
  induction k generalizing limit n with
  | zero =>
    rw [stripWithin]
    split
    · next h => exact Nat.div_mul_cancel (Nat.dvd_of_mod_eq_zero h.2)
    · exact Nat.mul_one n
  | succ k ih =>
    simp only [stripWithin]
    split
    · next h =>
      rw [tenTo_add, Nat.mul_comm (tenTo (blockLength (k + 1))), ← Nat.mul_assoc, ih]
      exact Nat.div_mul_cancel (Nat.dvd_of_mod_eq_zero h.2)
    · exact ih limit n

/-- Taking trailing zeros off keeps the number. -/
theorem stripZeros_mul (limit n : Nat) :
    (stripZeros limit n).1 * tenTo (stripZeros limit n).2 = n := stripWithin_mul _ limit n

/-- Reading on from a number shifts it by the digits that follow. -/
theorem foldl_digits (digits : List Char) (n : Nat) :
    digits.foldl (fun n c ↦ 10 * n + value c) n = n * tenTo digits.length + read digits := by
  induction digits generalizing n with
  | nil => simp [read, tenTo]
  | cons c rest ih =>
    have h : read (c :: rest) = rest.foldl (fun n c ↦ 10 * n + value c) (10 * 0 + value c) := rfl
    rw [List.foldl_cons, ih, h, ih (10 * 0 + value c), List.length_cons, tenTo_succ, Nat.mul_zero,
      Nat.zero_add, Nat.add_mul]
    ac_rfl

/-- The first digit counts as many zeros as digits follow. -/
theorem read_cons (c : Char) (rest : List Char) :
    read (c :: rest) = value c * tenTo rest.length + read rest := by
  rw [read, List.foldl_cons, foldl_digits]
  simp

/-- The number of a text in two parts. -/
theorem read_append (first second : List Char) :
    read (first ++ second) = read first * tenTo second.length + read second := by
  rw [read, List.foldl_append, foldl_digits]
  rfl

/-- A block has its length. -/
theorem length_block (k n : Nat) (tail : List Char) :
    (block k n tail).length = blockLength k + tail.length := by
  induction k generalizing n tail with
  | zero => simp [block, blockLength, Nat.add_comm]
  | succ k ih => simp only [block, ih, blockLength_succ]; omega

/-- A digit character has the value of its digit. -/
theorem value_toChar (d : Nat) : value (toChar d) = d % 10 := by
  have h : d % 10 < 10 := Nat.mod_lt _ (by decide)
  generalize hm : d % 10 = m at h
  rw [value, toChar, hm]
  rcases m with _ | _ | _ | _ | _ | _ | _ | _ | _ | _ | m <;> first | rfl | omega

/-- A block reads as the number that it was written for, as far as it fits. -/
theorem read_block (k n : Nat) (tail : List Char) :
    read (block k n tail) = n % tenTo (blockLength k) * tenTo tail.length + read tail := by
  induction k generalizing n tail with
  | zero => rw [block, read_cons, value_toChar]; rfl
  | succ k ih =>
    simp only [block]
    rw [ih, ih, length_block, Nat.mod_mod, blockLength_succ, tenTo_add, tenTo_add, Nat.mod_mul]
    rw [Nat.add_mul]
    ac_rfl

/-- A digit character is a digit. -/
theorem isDigit_toChar (d : Nat) : isDigit (toChar d) = true := by
  have h : d % 10 < 10 := Nat.mod_lt _ (by decide)
  generalize hm : d % 10 = m at h
  rw [toChar, hm]
  rcases m with _ | _ | _ | _ | _ | _ | _ | _ | _ | _ | m <;> first | decide | omega

/-- A block holds digits. -/
theorem isDigit_block (k n : Nat) (tail : List Char) (h : ∀ c ∈ tail, isDigit c = true) :
    ∀ c ∈ block k n tail, isDigit c = true := by
  induction k generalizing n tail with
  | zero =>
    intro c hc
    rcases List.mem_cons.mp hc with rfl | hc
    · exact isDigit_toChar n
    · exact h c hc
  | succ k ih => exact ih _ _ (ih _ _ h)

/-- Leading zeros do not count. -/
theorem read_dropWhile_zero (digits : List Char) :
    read (digits.dropWhile (· == '0')) = read digits := by
  induction digits with
  | nil => rfl
  | cons c rest ih =>
    by_cases h : c = '0'
    · subst h
      rw [List.dropWhile_cons_of_pos (by decide), ih, read_cons]
      simp [value]
    · rw [List.dropWhile_cons_of_neg (by simpa using h)]

/-- The written digits of a number read back as the number. -/
theorem read_write (n : Nat) : read (write n) = n := by
  have h : read ((block (blockSize n) n []).dropWhile (· == '0')) = n := by
    rw [read_dropWhile_zero, read_block, Nat.mod_eq_of_lt (lt_tenTo_blockSize n)]
    exact Nat.mul_one n
  rw [write]
  split
  · next empty =>
    rw [empty] at h
    exact h
  · exact h

/-- Every number is written with a digit. -/
theorem write_ne_nil (n : Nat) : write n ≠ [] := by
  rw [write]
  split
  · exact List.cons_ne_nil _ _
  · next h => exact h

/-- Numbers are written with digits only. -/
theorem isDigit_of_mem_write {n : Nat} {c : Char} (h : c ∈ write n) : isDigit c = true := by
  rw [write] at h
  split at h
  · rcases List.mem_singleton.mp h with rfl
    decide
  · exact isDigit_block _ _ [] (by simp) c ((List.dropWhile_sublist _).mem h)

end FuzzyCalc.Digits
