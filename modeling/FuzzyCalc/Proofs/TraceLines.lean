import Mathlib.Data.List.DropRight
import FuzzyCalc.Line
import FuzzyCalc.Proofs.Rendering

/-!
# The lines of a trace

The line for a token that was taken has its offset, its spelling and what the expression has come
down to; that for a variable that got a value has the letter and the value. What is spelled has no
blanks in it, so what a line shows in the end is its last word.
-/

namespace FuzzyCalc

/-! ### Blanks -/

/-- A number is written without blanks. -/
theorem Decimal.blank_notMem_numeral (x : Decimal) : ' ' ∉ x.numeral := by
  have digit {c : Char} (h : Digits.isDigit c = true) : c ≠ ' ' :=
    Digits.of_isDigit (P := (· ≠ ' ')) (by decide) h
  cases x with
  | finite x =>
    have unsigned : ' ' ∉ x.unsignedNumeral := by
      intro blank
      exact FiniteDecimal.forall_mem_unsignedNumeral (P := (· ≠ ' ')) (by decide) (by decide)
        ' ' blank rfl
    rw [numeral, FiniteDecimal.numeral_eq]
    cases x.negative with
    | false => simpa using unsigned
    | true => simpa using unsigned
  | infinity negative =>
    cases negative with
    | false => decide
    | true => decide
  | nan negative signaling payload =>
    have digits : ' ' ∉ payloadNumeral payload := by
      rw [payloadNumeral]
      split
      · exact List.not_mem_nil
      · intro blank
        exact digit (Digits.isDigit_of_mem_write blank) rfl
    have sign : ' ' ∉ (if negative then ['-'] else []) := by
      cases negative with
      | false => decide
      | true => decide
    have mark : ' ' ∉ (if signaling then ['s'] else []) := by
      cases signaling with
      | false => decide
      | true => decide
    simp [numeral, digits, sign, mark]

namespace Token

/-- A token is spelled without blanks. -/
theorem blank_notMem_spelling (token : Token) : ' ' ∉ token.spelling := by
  cases token with
  | number x => exact x.blank_notMem_numeral
  | symbol s =>
    have all : ∀ s ∈ Symbol.all, ' ' ∉ s.spelling := by decide
    exact all s s.mem_all

/-- Tokens are spelled without blanks. -/
theorem blank_notMem_spellAll (tokens : List Token) : ' ' ∉ spellAll tokens := by
  intro blank
  obtain ⟨token, -, spelled⟩ := List.mem_flatMap.mp blank
  exact token.blank_notMem_spelling spelled

end Token

/-! ### Lines -/

/-- The digits of an offset. -/
theorem toList_toString (n : Nat) : (toString n).toList = Digits.write n := by
  rw [Nat.toString_eq_repr, Nat.toList_repr, Digits.write_eq_toDigits]

/-- The line for a token that was taken: its offset in four columns or more, its spelling in six or
more, and behind an arrow what the expression has come down to. -/
def tokenLine (offset : Nat) (token : Token) (stack : Stack) : String :=
  String.ofList (List.leftpad 4 ' ' (toString offset).toList ++ "  ".toList ++
    List.rightpad 6 ' ' token.spelling ++ " -> ".toList ++ Token.spellAll stack.residue)

/-- The line for a variable that got a value. -/
def assignmentLine (letter : Letter) (x : Decimal) : String :=
  String.ofList (letter.toChar :: " := ".toList ++ x.numeral)

/-- What a line shows in the end: what stands behind its last blank. -/
def lastWord (line : String) : List Char := line.toList.rtakeWhile (· != ' ')

/-- What the last of some lines shows in the end; nothing if there is no line. -/
def lastShown (lines : List String) : List Char := (lines.getLast?.map lastWord).getD []

/-- A word without blanks is the last one behind a blank. -/
theorem lastWord_ofList (front : List Char) {word : List Char} (h : ' ' ∉ word) :
    lastWord (String.ofList (front ++ ' ' :: word)) = word := by
  have solid : ∀ c ∈ word.reverse, (c != ' ') = true := by
    intro c hc
    have differs : c ≠ ' ' := by
      rintro rfl
      exact h (List.mem_reverse.mp hc)
    simpa using differs
  rw [lastWord, String.toList_ofList, List.rtakeWhile, List.reverse_append, List.reverse_cons,
    List.append_assoc, List.takeWhile_append_of_pos solid]
  simp

/-- The line for a token shows what is left. -/
theorem lastWord_tokenLine (offset : Nat) (token : Token) (stack : Stack) :
    lastWord (tokenLine offset token stack) = Token.spellAll stack.residue := by
  have arrow : " -> ".toList = [' ', '-', '>'] ++ [' '] := by decide
  rw [tokenLine, arrow, ← List.append_assoc, List.append_assoc _ [' ']]
  exact lastWord_ofList _ (Token.blank_notMem_spellAll stack.residue)

/-- The line for a token begins with a blank or a digit, and so it is not that of a variable. -/
theorem tokenLine_ne_assignmentLine (offset : Nat) (token : Token) (stack : Stack)
    (letter : Letter) (x : Decimal) : tokenLine offset token stack ≠ assignmentLine letter x := by
  have digits := toList_toString offset
  have noLetter : ∀ c ∈ List.leftpad 4 ' ' (toString offset).toList, Letter.ofChar? c = none := by
    intro c hc
    rw [digits] at hc
    rcases List.mem_append.mp hc with blank | digit
    · rw [List.eq_of_mem_replicate blank]
      rfl
    · exact Digits.of_isDigit (P := (Letter.ofChar? · = none)) (by decide)
        (Digits.isDigit_of_mem_write digit)
  have filled : List.leftpad 4 ' ' (toString offset).toList ≠ [] := by
    rw [digits]
    exact List.append_ne_nil_of_right_ne_nil _ (Digits.write_ne_nil offset)
  obtain ⟨c, rest, front⟩ := List.exists_cons_of_ne_nil filled
  intro same
  have lists := String.ofList_injective same
  rw [front] at lists
  have first : c = letter.toChar := (List.cons.inj lists).1
  have none := noLetter c (by rw [front]; exact List.mem_cons_self)
  rw [first, letter.ofChar?_toChar] at none
  cases none

namespace TraceEntry

/-- The line of a token that was taken. -/
theorem line_taken (offset : Nat) (token : Token) (stack : Stack) :
    (taken offset token stack).line = tokenLine offset token stack := by
  simp only [tokenLine, toList_toString, String.ofList_append, String.ofList_toList]
  rfl

/-- The line of a variable that got a value. -/
theorem line_assigned (letter : Letter) (x : Decimal) :
    (assigned letter x).line = assignmentLine letter x := by
  have front : letter.toChar :: " := ".toList = [letter.toChar] ++ " := ".toList := rfl
  simp only [assignmentLine, front, String.ofList_append, String.ofList_toList]
  rfl

end TraceEntry

end FuzzyCalc
