import FuzzyCalc.Memory
import FuzzyCalc.Text.Alphabetic

/-!
# Lexemes

A text is cut into lexemes without a gap: a run of digits and points as long as it goes, a letter, a
symbol, the longest that fits, or a character that is none of these. A lexeme is then a token, or
the cause why it is none: a letter stands for the value of its variable.
-/

namespace FuzzyCalc

/-- A piece of text, by what it looks like. -/
inductive Lexeme where
  /-- A run of digits and points. -/
  | numeral (text : List Char)
  /-- The letter of a variable. -/
  | letter (letter : Letter)
  /-- A symbol. -/
  | symbol (s : Symbol)
  /-- A character that begins nothing else, and the one after it. -/
  | stray (c : Char) (next : Option Char)
  deriving DecidableEq, Repr, Inhabited

namespace Lexeme

/-- Whether a character can stand in a numeral. -/
def isNumeric (c : Char) : Bool := Digits.isDigit c || c == '.'

/-- The longest symbol at the front of a text. -/
def longestSymbol? (c : Char) (rest : List Char) : Option Symbol :=
  (rest.head?.bind fun d ↦ Symbol.ofSpelling? [c, d]).or (Symbol.ofSpelling? [c])

/-- The lexeme at the front of a text. -/
def first (c : Char) (rest : List Char) : Lexeme :=
  if isNumeric c then numeral (c :: rest.takeWhile isNumeric)
  else match Letter.ofChar? c with
    | some l => letter l
    | none => match longestSymbol? c rest with
      | some s => symbol s
      | none => stray c rest.head?

/-- The text of a lexeme. -/
def text : Lexeme → List Char
  | numeral text => text
  | letter l => [l.toChar]
  | symbol s => s.spelling
  | stray c _ => [c]

/-- The number of characters of a lexeme. -/
def length (x : Lexeme) : Nat := x.text.length

/-- Cut a text into lexemes. -/
def split : List Char → List Lexeme
  | [] => []
  | c :: rest =>
    let x := first c rest
    x :: split (rest.drop (x.length - 1))
termination_by text => text.length
decreasing_by
  rw [List.length_drop, List.length_cons]
  omega

/-- The longest symbol at the front of a text is spelled there. -/
theorem spelling_longestSymbol? {c : Char} {rest : List Char} {s : Symbol}
    (h : longestSymbol? c rest = some s) :
    ∃ piece, s.spelling = c :: piece ∧ piece ++ rest.drop piece.length = rest := by
  unfold longestSymbol? at h
  rcases Option.or_eq_some_iff.mp h with h | ⟨_, h⟩
  · obtain ⟨d, hd, hs⟩ := Option.bind_eq_some_iff.mp h
    obtain ⟨tail, rfl⟩ := List.head?_eq_some_iff.mp hd
    exact ⟨[d], Symbol.spelling_of_ofSpelling? hs, rfl⟩
  · exact ⟨[], Symbol.spelling_of_ofSpelling? h, rfl⟩

/-- The first lexeme of a text is a nonempty piece at its front. -/
theorem text_first (c : Char) (rest : List Char) :
    ∃ piece, (first c rest).text = c :: piece ∧ piece ++ rest.drop piece.length = rest := by
  unfold first
  split
  · refine ⟨rest.takeWhile isNumeric, rfl, ?_⟩
    have dropped : ∀ a b : List Char, a ++ b = rest → a ++ rest.drop a.length = rest := by
      rintro a b rfl
      rw [List.drop_left]
    exact dropped _ _ List.takeWhile_append_dropWhile
  · cases hl : Letter.ofChar? c with
    | some l => exact ⟨[], by rw [text, Letter.toChar_of_ofChar? hl], rfl⟩
    | none =>
      cases hs : longestSymbol? c rest with
      | some s => exact spelling_longestSymbol? hs
      | none => exact ⟨[], rfl, rfl⟩

/-- The lexemes of a text, one after the other, are the text. -/
theorem flatMap_text_split (chars : List Char) : (split chars).flatMap text = chars := by
  induction chars using split.induct with
  | case1 => rw [split, List.flatMap_nil]
  | case2 c rest x ih =>
    obtain ⟨piece, hpiece, hrest⟩ := text_first c rest
    have hlength : (first c rest).length - 1 = piece.length := by
      rw [length, hpiece, List.length_cons, Nat.add_sub_cancel]
    rw [split, List.flatMap_cons, ih, hpiece, hlength, List.cons_append, hrest]

/-- The token that a lexeme is, or the cause why it is none. -/
def toToken (m : Memory) : Lexeme → Except Cause Token
  | numeral text =>
    match FiniteDecimal.ofPlainNumeral? text with
    | some x => .ok (.number (.finite x))
    | none => .error (.badNumeral text)
  | letter l => .number <$> m.read l
  | symbol s => .ok (.symbol s)
  | stray c next =>
    if Text.isLetter c then .error (.badName [c]) else .error (.strayCharacter c next)

end Lexeme

/-- The tokens of a text with their offsets, up to the end or to the first lexeme that is none. -/
structure Reading where
  /-- The tokens and where they begin. -/
  tokens : List (Nat × Token)
  /-- The lexeme that is no token: where it begins, and why. -/
  failure : Option (Nat × Cause)
  deriving DecidableEq, Repr, Inhabited

namespace Reading

/-- Turn lexemes into tokens; the first begins at `offset`. -/
def ofLexemes (m : Memory) (offset : Nat) : List Lexeme → Reading
  | [] => ⟨[], none⟩
  | x :: rest =>
    match x.toToken m with
    | .ok token =>
      let reading := ofLexemes m (offset + x.length) rest
      ⟨(offset, token) :: reading.tokens, reading.failure⟩
    | .error cause => ⟨[], some (offset, cause)⟩

/-- Scan a text from an offset on. -/
def scan (m : Memory) (text : List Char) (start : Nat) : Reading :=
  ofLexemes m start (Lexeme.split (text.drop start))

end Reading

end FuzzyCalc
