import FuzzyCalc.Proofs.Evaluation
import FuzzyCalc.Proofs.Numerals

/-!
# Maximal munch

A text is read lexeme after lexeme, each as long as it can be where the one before ends, and nothing
is skipped. That is said here without the scanner, as a relation between a text and what is read of
it: a run of digits and points up to the next other character, a letter, or a symbol such that no
longer one is spelled there. The scanner reads a text in this way and in no other.
-/

namespace FuzzyCalc

namespace FiniteDecimal

/-- How many digits of a numeral stand behind its point. -/
def decimals (text : List Char) : Nat := (text.dropWhile (· != '.')).countP Digits.isDigit

/-- A run of digits and points is digits alone, or digits up to its first point. -/
theorem digits_or_point {text : List Char} (run : ∀ c ∈ text, Lexeme.isNumeric c = true) :
    (∀ c ∈ text, Digits.isDigit c = true) ∨
    ∃ whole rest, text = whole ++ '.' :: rest ∧ ∀ c ∈ whole, Digits.isDigit c = true := by
  induction text with
  | nil => simp
  | cons c text ih =>
    have first := run c (by simp)
    by_cases hc : Digits.isDigit c = true
    · rcases ih (fun d hd ↦ run d (by simp [hd])) with digits | ⟨whole, rest, rfl, digits⟩
      · left
        simpa [hc] using digits
      · right
        exact ⟨c :: whole, rest, rfl, by simpa [hc] using digits⟩
    · right
      refine ⟨[], text, ?_, by simp⟩
      simpa [Lexeme.isNumeric, hc] using first

/-- No digit is a point. -/
theorem ne_point {c : Char} (h : Digits.isDigit c = true) : c ≠ '.' := by
  rintro rfl
  exact absurd h (by decide)

/-- There is no point among digits. -/
theorem point_not_mem {digits : List Char} (hd : ∀ c ∈ digits, Digits.isDigit c = true) :
    '.' ∉ digits := fun h ↦ ne_point (hd _ h) rfl

/-- A text has a digit exactly if some are left when the others are taken out. -/
theorem exists_digit_iff {text : List Char} :
    (∃ c ∈ text, Digits.isDigit c = true) ↔ text.filter Digits.isDigit ≠ [] := by
  simp [List.filter_eq_nil_iff]

/-- Behind the first point of a numeral there is no other one exactly if there are only digits. -/
theorem count_point_le_one_iff {whole rest : List Char}
    (hw : ∀ c ∈ whole, Digits.isDigit c = true) (run : ∀ c ∈ rest, Lexeme.isNumeric c = true) :
    (whole ++ '.' :: rest).count '.' ≤ 1 ↔ ∀ c ∈ rest, Digits.isDigit c = true := by
  rw [List.count_append, List.count_eq_zero.mpr (point_not_mem hw), List.count_cons_self]
  constructor
  · intro single c hc
    have none : '.' ∉ rest := List.count_eq_zero.mp (by omega)
    have other : c ≠ '.' := by
      rintro rfl
      exact none hc
    simpa [Lexeme.isNumeric, other] using run c hc
  · intro digits
    rw [List.count_eq_zero.mpr (point_not_mem digits)]

/-- Digits alone have no decimals. -/
theorem decimals_of_digits {digits : List Char} (hd : ∀ c ∈ digits, Digits.isDigit c = true) :
    decimals digits = 0 := by
  have all : digits.dropWhile (· != '.') = [] := by
    simp only [List.dropWhile_eq_nil_iff, bne_iff_ne]
    exact fun c hc ↦ ne_point (hd c hc)
  simp [decimals, all]

/-- The digits behind the point are the decimals. -/
theorem decimals_at_point {whole rest : List Char} (hw : ∀ c ∈ whole, Digits.isDigit c = true)
    (hr : ∀ c ∈ rest, Digits.isDigit c = true) : decimals (whole ++ '.' :: rest) = rest.length := by
  have before : ∀ c ∈ whole, (c != '.') = true := by
    simp only [bne_iff_ne]
    exact fun c hc ↦ ne_point (hw c hc)
  rw [decimals, List.dropWhile_append_of_pos before, List.dropWhile_cons_of_neg (by simp),
    List.countP_cons_of_neg (by decide), List.countP_eq_length.mpr hr]

/-- Digits alone are read as they stand, if there are any. -/
theorem ofPlainNumeral?_digits_eq_some_iff {digits : List Char} {x : FiniteDecimal}
    (hd : ∀ c ∈ digits, Digits.isDigit c = true) :
    ofPlainNumeral? digits = some x ↔ digits ≠ [] ∧ x = ⟨false, Digits.read digits, 0⟩ := by
  by_cases empty : digits = []
  · subst empty
    simp [ofPlainNumeral?]
  · simp [ofPlainNumeral?_digits hd empty, empty, eq_comm]

/-- Digits before and behind a point are read as one number, if there are any. -/
theorem ofPlainNumeral?_at_point_eq_some_iff {whole rest : List Char} {x : FiniteDecimal}
    (hw : ∀ c ∈ whole, Digits.isDigit c = true) :
    ofPlainNumeral? (whole ++ '.' :: rest) = some x ↔
      whole ++ rest ≠ [] ∧ (∀ c ∈ rest, Digits.isDigit c = true) ∧
        x = ⟨false, Digits.read (whole ++ rest), -rest.length⟩ := by
  have nonempty : (!(whole.isEmpty && rest.isEmpty)) = true ↔ whole ++ rest ≠ [] := by
    by_cases empty : whole = [] <;> simp [empty]
  rw [ofPlainNumeral?_at_point hw, Option.ite_none_right_eq_some, Bool.and_eq_true, nonempty,
    List.all_eq_true, Option.some.injEq]
  constructor
  · rintro ⟨⟨digits, some⟩, rfl⟩
    exact ⟨some, digits, rfl⟩
  · rintro ⟨some, digits, rfl⟩
    exact ⟨⟨digits, some⟩, rfl⟩

/-- A run of digits and points is a plain numeral if it has a digit and at most one point. It
denotes the number of its digits, with as many decimals as there are digits behind the point. -/
theorem ofPlainNumeral?_eq_some_iff {text : List Char} {x : FiniteDecimal}
    (run : ∀ c ∈ text, Lexeme.isNumeric c = true) :
    ofPlainNumeral? text = some x ↔
      (∃ c ∈ text, Digits.isDigit c = true) ∧ text.count '.' ≤ 1 ∧
        x = ⟨false, Digits.read (text.filter Digits.isDigit), -(decimals text)⟩ := by
  rw [exists_digit_iff]
  rcases digits_or_point run with digits | ⟨whole, rest, rfl, digits⟩
  · rw [ofPlainNumeral?_digits_eq_some_iff digits, decimals_of_digits digits,
      List.filter_eq_self.mpr digits, List.count_eq_zero.mpr (point_not_mem digits)]
    simp
  · have numeric : ∀ c ∈ rest, Lexeme.isNumeric c = true := fun c hc ↦ run c (by simp [hc])
    rw [ofPlainNumeral?_at_point_eq_some_iff digits, count_point_le_one_iff digits numeric]
    by_cases all : ∀ c ∈ rest, Digits.isDigit c = true
    · have kept : (whole ++ '.' :: rest).filter Digits.isDigit = whole ++ rest := by
        rw [List.filter_append, List.filter_eq_self.mpr digits,
          List.filter_cons_of_neg (by decide), List.filter_eq_self.mpr all]
      rw [decimals_at_point digits all, kept]
    · simp [all]

end FiniteDecimal

namespace Lexeme

/-- A lexeme at the front of a text, before the rest of it, as long as it can be. -/
inductive Leads : Lexeme → List Char → Prop
  /-- A run of digits and points that ends where it must. -/
  | numeral {text after : List Char} (nonempty : text ≠ []) (run : ∀ c ∈ text, isNumeric c = true)
    (ends : ∀ d ∈ after.head?, isNumeric d = false) : Leads (.numeral text) after
  /-- One letter. -/
  | letter (l : Letter) (after : List Char) : Leads (.letter l) after
  /-- A symbol, and no longer one is spelled there. -/
  | symbol {s : Symbol} {after : List Char}
    (longest : ∀ t : Symbol, t.spelling <+: s.spelling ++ after →
      t.spelling.length ≤ s.spelling.length) : Leads (.symbol s) after

/-- What a lexeme stands for: the number of its digits, the value of its variable, or its symbol. -/
inductive StandsFor (m : Memory) : Lexeme → Token → Prop
  /-- A numeral has a digit and at most one point. -/
  | numeral {text : List Char} (digit : ∃ c ∈ text, Digits.isDigit c = true)
    (points : text.count '.' ≤ 1) : StandsFor m (.numeral text) (.number (.finite
      ⟨false, Digits.read (text.filter Digits.isDigit), -(FiniteDecimal.decimals text)⟩))
  /-- The variable has a value. -/
  | letter {l : Letter} {x : Decimal} (value : m.value? l = some x) :
    StandsFor m (.letter l) (.number x)
  /-- A symbol stands for itself. -/
  | symbol (s : Symbol) : StandsFor m (.symbol s) (.symbol s)

/-- Why a lexeme stands for nothing. -/
inductive StandsForNone (m : Memory) : Lexeme → Cause → Prop
  /-- A numeral has no digit, or more than one point. -/
  | numeral {text : List Char}
    (malformed : (∀ c ∈ text, Digits.isDigit c = false) ∨ 1 < text.count '.') :
    StandsForNone m (.numeral text) (.badNumeral text)
  /-- The variable has no value. -/
  | letter {l : Letter} (unassigned : m.value? l = none) :
    StandsForNone m (.letter l) (.unassigned l)

/-- No longer symbol is spelled at the front of a text exactly if the next character does not fuse
with the symbol. -/
theorem longest_iff_not_fuses {s : Symbol} {after : List Char} :
    (∀ t : Symbol, t.spelling <+: s.spelling ++ after →
      t.spelling.length ≤ s.spelling.length) ↔
    ∀ d ∈ after.head?, (symbol s).fuses d = false := by
  constructor
  · intro longest d hd
    obtain ⟨tail, rfl⟩ := List.head?_eq_some_iff.mp hd
    cases hfused : Symbol.ofSpelling? (s.spelling ++ [d]) with
    | none => simp [fuses, hfused]
    | some t =>
      have spelled := Symbol.spelling_of_ofSpelling? hfused
      have shorter := longest t (by simp [spelled])
      simp [spelled] at shorter
  · intro apart t ht
    by_contra! longer
    have nonempty := List.length_pos_iff.mpr s.spelling_ne_nil
    have atMost := t.length_spelling_le
    cases after with
    | nil =>
      have fits := ht.length_le
      simp at fits
      omega
    | cons d tail =>
      have spelled : t.spelling = s.spelling ++ [d] := by
        have cut := List.prefix_iff_eq_take.mp ht
        have length : t.spelling.length = s.spelling.length + 1 := by omega
        rw [cut, length, List.take_length_add_append]
        rfl
      have alone := apart d rfl
      rw [fuses, ← spelled, Symbol.ofSpelling?_spelling] at alone
      cases alone

/-- A lexeme leads a text exactly if it is proper and the next character does not fuse with it. -/
theorem leads_iff {x : Lexeme} {after : List Char} :
    x.Leads after ↔ x.Proper ∧ ∀ d ∈ after.head?, x.fuses d = false := by
  constructor
  · intro h
    cases h with
    | numeral nonempty run ends => exact ⟨⟨nonempty, run⟩, ends⟩
    | letter l => exact ⟨trivial, fun d _ ↦ rfl⟩
    | symbol longest => exact ⟨trivial, longest_iff_not_fuses.mp longest⟩
  · rintro ⟨proper, apart⟩
    cases x with
    | numeral text => exact .numeral proper.1 proper.2 apart
    | letter l => exact .letter l after
    | symbol s => exact .symbol (longest_iff_not_fuses.mpr apart)
    | stray c next => exact proper.elim

/-- The lexeme that leads a text is the first one that is cut off. -/
theorem Leads.split_append {x : Lexeme} {after : List Char} (h : x.Leads after) :
    split (x.text ++ after) = x :: split after := by
  obtain ⟨proper, apart⟩ := leads_iff.mp h
  obtain ⟨c, piece, ht⟩ := List.exists_cons_of_ne_nil (text_ne_nil proper)
  rw [ht, List.cons_append]
  exact split_cons_append (first_of_text proper ht apart) ht

/-- The first lexeme that is cut off leads the text, unless its character is stray. -/
theorem leads_first {c : Char} {piece after : List Char}
    (ht : (first c (piece ++ after)).text = c :: piece)
    (proper : (first c (piece ++ after)).Proper) : (first c (piece ++ after)).Leads after :=
  leads_iff.mpr ⟨proper, not_fuses_first rfl ht⟩

/-- A character that no lexeme begins with is stray. -/
theorem first_of_not_leads {c : Char} {after : List Char}
    (h : ∀ (x : Lexeme) (rest : List Char), x.text ++ rest = c :: after → ¬ x.Leads rest) :
    first c after = stray c after.head? := by
  refine (proper_or_stray c after).resolve_left fun proper ↦ ?_
  obtain ⟨piece, ht, hrest⟩ := text_first c after
  rw [← hrest] at ht proper
  apply h _ _ _ (leads_first ht proper)
  rw [ht, List.cons_append, hrest]

/-- A stray character begins no lexeme. -/
theorem not_leads_of_stray {c : Char} {after : List Char}
    (h : first c after = stray c after.head?) (x : Lexeme) (rest : List Char)
    (ht : x.text ++ rest = c :: after) : ¬ x.Leads rest := by
  intro leads
  obtain ⟨proper, apart⟩ := leads_iff.mp leads
  obtain ⟨d, piece, hx⟩ := List.exists_cons_of_ne_nil (text_ne_nil proper)
  rw [hx, List.cons_append, List.cons.injEq] at ht
  obtain ⟨rfl, rfl⟩ := ht
  rw [first_of_text proper hx apart] at h
  rw [h] at proper
  exact proper

/-- A run of digits and points is no plain numeral if it has no digit or more than one point. -/
theorem ofPlainNumeral?_eq_none_iff {text : List Char} (run : ∀ c ∈ text, isNumeric c = true) :
    FiniteDecimal.ofPlainNumeral? text = none ↔
      (∀ c ∈ text, Digits.isDigit c = false) ∨ 1 < text.count '.' := by
  rw [Option.eq_none_iff_forall_ne_some]
  simp only [ne_eq, FiniteDecimal.ofPlainNumeral?_eq_some_iff run]
  constructor
  · intro none
    by_contra! readable
    obtain ⟨⟨c, hc, digit⟩, points⟩ := readable
    exact none _ ⟨⟨c, hc, by simpa using digit⟩, points, rfl⟩
  · rintro (noDigit | points) x ⟨⟨c, hc, digit⟩, point, -⟩
    · simp [noDigit c hc] at digit
    · omega

/-- A proper lexeme is the token that it stands for. -/
theorem toToken_eq_ok_iff {m : Memory} {x : Lexeme} (hx : x.Proper) {token : Token} :
    x.toToken m = .ok token ↔ x.StandsFor m token := by
  constructor
  · intro h
    rcases toToken_eq_ok h with ⟨text, f, rfl, read, rfl⟩ | ⟨l, y, rfl, value, rfl⟩ | ⟨s, rfl, rfl⟩
    · obtain ⟨digit, points, rfl⟩ := (FiniteDecimal.ofPlainNumeral?_eq_some_iff hx.2).mp read
      exact .numeral digit points
    · exact .letter value
    · exact .symbol s
  · intro h
    cases h with
    | numeral digit points =>
      rw [toToken, (FiniteDecimal.ofPlainNumeral?_eq_some_iff hx.2).mpr ⟨digit, points, rfl⟩]
    | letter value =>
      rw [toToken, Memory.read, value]
      rfl
    | symbol s => rfl

/-- A proper lexeme is no token for the cause that it stands for none. -/
theorem toToken_eq_error_iff {m : Memory} {x : Lexeme} (hx : x.Proper) {cause : Cause} :
    x.toToken m = .error cause ↔ x.StandsForNone m cause := by
  constructor
  · intro h
    cases x with
    | numeral text =>
      rw [toToken] at h
      split at h
      · cases h
      · next malformed =>
        cases h
        exact .numeral ((ofPlainNumeral?_eq_none_iff hx.2).mp malformed)
    | letter l =>
      rw [toToken, Memory.read] at h
      split at h
      · cases h
      · next unassigned =>
        cases h
        exact .letter unassigned
    | symbol s => cases h
    | stray c next => exact hx.elim
  · intro h
    cases h with
    | numeral malformed => rw [toToken, (ofPlainNumeral?_eq_none_iff hx.2).mpr malformed]
    | letter unassigned =>
      rw [toToken, Memory.read, unassigned]
      rfl

end Lexeme

namespace Reading

open Lexeme

/-- What maximal munch makes of a text from an offset on: lexeme after lexeme, each at the end of
the one before and as long as it can be, up to the end of the text or to the first offset with no
lexeme that stands for a token. -/
inductive Tokenises (m : Memory) (text : List Char) : Nat → Reading → Prop
  /-- Nothing is left. -/
  | finished {n : Nat} (h : text.length ≤ n) : Tokenises m text n ⟨[], none⟩
  /-- A lexeme stands for a token, and it goes on at its end. -/
  | token {n : Nat} {x : Lexeme} {after : List Char} {token : Token} {later : Reading}
    (cut : text.drop n = x.text ++ after) (leads : x.Leads after) (means : x.StandsFor m token)
    (goesOn : Tokenises m text (n + x.length) later) :
    Tokenises m text n ⟨(n, token) :: later.tokens, later.failure⟩
  /-- A lexeme stands for no token. -/
  | refused {n : Nat} {x : Lexeme} {after : List Char} {cause : Cause}
    (cut : text.drop n = x.text ++ after) (leads : x.Leads after)
    (h : x.StandsForNone m cause) : Tokenises m text n ⟨[], some (n, cause)⟩
  /-- No lexeme begins there. -/
  | stray {n : Nat} {c : Char} {after : List Char} (cut : text.drop n = c :: after)
    (h : ∀ (x : Lexeme) (rest : List Char), x.text ++ rest = c :: after → ¬ x.Leads rest) :
    Tokenises m text n ⟨[], some (n,
      if Text.isLetter c then .badName [c] else .strayCharacter c after.head?)⟩

variable {m : Memory} {text : List Char}

/-- A stray character is no token. -/
theorem ofLexemes_stray (n : Nat) (c : Char) (next : Option Char) (rest : List Lexeme) :
    ofLexemes m n (.stray c next :: rest) =
      ⟨[], some (n, if Text.isLetter c then .badName [c] else .strayCharacter c next)⟩ := by
  by_cases hc : Text.isLetter c = true
  · simp [ofLexemes, toToken, hc]
  · simp [ofLexemes, toToken, hc]

/-- Behind a lexeme the text goes on with what is left. -/
theorem drop_add_length {n : Nat} {x : Lexeme} {after : List Char}
    (cut : text.drop n = x.text ++ after) : text.drop (n + x.length) = after := by
  rw [← List.drop_drop, cut, Lexeme.length, List.drop_left]

/-- What is cut off a text is read by maximal munch. -/
theorem tokenises_ofLexemes {rest : List Char} (n : Nat) (h : text.drop n = rest) :
    Tokenises m text n (ofLexemes m n (split rest)) := by
  induction rest using split_induction generalizing n with
  | nil =>
    rw [split_nil]
    exact .finished (List.drop_eq_nil_iff.mp h)
  | cons c piece after ht hcut ih =>
    rw [hcut]
    rcases proper_or_stray c (piece ++ after) with proper | stray
    · have cut : text.drop n = (first c (piece ++ after)).text ++ after := by
        rw [h, ht, List.cons_append]
      have leads := leads_first ht proper
      rw [ofLexemes]
      cases hx : (first c (piece ++ after)).toToken m with
      | ok token =>
        exact .token cut leads ((toToken_eq_ok_iff proper).mp hx) (ih _ (drop_add_length cut))
      | error cause => exact .refused cut leads ((toToken_eq_error_iff proper).mp hx)
    · rw [stray, ofLexemes_stray]
      exact .stray h (not_leads_of_stray stray)

/-- Maximal munch leaves no choice. -/
theorem Tokenises.eq_ofLexemes {n : Nat} {reading : Reading} (h : Tokenises m text n reading) :
    reading = ofLexemes m n (split (text.drop n)) := by
  induction h with
  | finished h => rw [List.drop_eq_nil_iff.mpr h, split_nil, ofLexemes]
  | token cut leads means goesOn ih =>
    have proper := (leads_iff.mp leads).1
    rw [cut, leads.split_append, ofLexemes, (toToken_eq_ok_iff proper).mpr means, ih,
      drop_add_length cut]
  | refused cut leads h =>
    have proper := (leads_iff.mp leads).1
    rw [cut, leads.split_append, ofLexemes, (toToken_eq_error_iff proper).mpr h]
  | stray cut h => rw [cut, split, first_of_not_leads h, ofLexemes_stray]

/-- The scanner reads a text from any offset on by maximal munch, and in no other way. -/
theorem scan_eq_iff_tokenises (m : Memory) (text : List Char) (start : Nat) (reading : Reading) :
    scan m text start = reading ↔ Tokenises m text start reading := by
  constructor
  · rintro rfl
    exact tokenises_ofLexemes start rfl
  · intro h
    exact h.eq_ofLexemes.symm

end Reading

end FuzzyCalc
