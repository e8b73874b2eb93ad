/-!
# Variable letters

The variables are the fifty-two ASCII letters, numbered from `A` to `Z` and then from `a` to `z`.
-/

namespace FuzzyCalc

/-- One of the fifty-two letters, by its number. -/
structure Letter where
  /-- The number of the letter. -/
  index : Fin 52
  deriving DecidableEq, Repr, Inhabited

namespace Letter

/-- All letters in order. -/
def all : List Letter := (List.finRange 52).map Letter.mk

/-- The code point of the letter with a given number. The rule goes on beyond the letters at both
ends, as far as there are code points. -/
def codePoint? (n : Int) : Option Nat :=
  let code := if n < 26 then 65 + n else 97 + (n - 26)
  if 0 ≤ code ∧ code ≤ 0x10FFFF then some code.toNat else none

/-- The character of a letter. -/
def toChar (letter : Letter) : Char :=
  Char.ofNat (if letter.index.val < 26 then 65 + letter.index.val else 71 + letter.index.val)

/-- The letter that a character is. -/
def ofChar? (c : Char) : Option Letter :=
  if h : 65 ≤ c.toNat ∧ c.toNat ≤ 90 then some ⟨⟨c.toNat - 65, by omega⟩⟩
  else if h : 97 ≤ c.toNat ∧ c.toNat ≤ 122 then some ⟨⟨c.toNat - 71, by omega⟩⟩
  else none

/-- The letter that a name is: only a name of one character can be one. -/
def ofName? : List Char → Option Letter
  | [c] => ofChar? c
  | _ => none

/-- The number of the letter that a name is, or `-1`. -/
def indexOf (name : List Char) : Int :=
  match ofName? name with
  | some letter => letter.index.val
  | none => -1

/-- Every letter is in the list of all letters. -/
theorem mem_all (letter : Letter) : letter ∈ all :=
  List.mem_map.mpr ⟨letter.index, List.mem_finRange _, rfl⟩

/-- A letter is read back from its character. -/
theorem ofChar?_toChar (letter : Letter) : ofChar? letter.toChar = some letter := by
  rcases letter with ⟨n⟩
  revert n
  decide

/-- The character of the letter that a character is, is that character. -/
theorem toChar_of_ofChar? {c : Char} {letter : Letter} (h : ofChar? c = some letter) :
    letter.toChar = c := by
  unfold ofChar? at h
  split at h
  · obtain rfl := Option.some.inj h
    rw [toChar, if_pos (by dsimp only; omega), show 65 + (c.toNat - 65) = c.toNat by omega,
      Char.ofNat_toNat]
  · split at h
    · obtain rfl := Option.some.inj h
      rw [toChar, if_neg (by dsimp only; omega), show 71 + (c.toNat - 71) = c.toNat by omega,
        Char.ofNat_toNat]
    · cases h

end Letter

end FuzzyCalc
