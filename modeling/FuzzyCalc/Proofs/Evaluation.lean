import FuzzyCalc.Proofs.Seams
import FuzzyCalc.Proofs.Shape

/-!
# The value of a text

A text has a value if each of its lexemes is a token, each token is taken, and a number alone is
left. Where the text stands in a line does not matter, and a line of assignment has no value.
-/

namespace FuzzyCalc

/-- A lexeme is a token as a numeral that can be read, as a variable with a value or as a symbol. -/
theorem Lexeme.toToken_eq_ok {m : Memory} {x : Lexeme} {token : Token}
    (h : x.toToken m = .ok token) :
    (∃ digits f, x = .numeral digits ∧ FiniteDecimal.ofPlainNumeral? digits = some f ∧
      token = .number (.finite f)) ∨
    (∃ l y, x = .letter l ∧ m.value? l = some y ∧ token = .number y) ∨
    ∃ s, x = .symbol s ∧ token = .symbol s := by
  cases x with
  | numeral digits =>
    rw [toToken] at h
    split at h
    · next f hf =>
      cases h
      exact .inl ⟨digits, f, rfl, hf, rfl⟩
    · cases h
  | letter l =>
    rw [toToken, Memory.read] at h
    split at h
    · next y hy =>
      cases h
      exact .inr (.inl ⟨l, y, rfl, hy, rfl⟩)
    · cases h
  | symbol s =>
    cases h
    exact .inr (.inr ⟨s, rfl, rfl⟩)
  | stray c next =>
    rw [toToken] at h
    split at h
    · cases h
    · cases h

/-- What is no token is a stray character, a numeral that cannot be read, or a variable without a
value. -/
theorem Lexeme.toToken_eq_error {m : Memory} {x : Lexeme} {cause : Cause}
    (h : x.toToken m = .error cause) :
    (∃ c next, x = .stray c next ∧ (cause = .badName [c] ∨ cause = .strayCharacter c next)) ∨
    (∃ digits, x = .numeral digits ∧ cause = .badNumeral digits) ∨
    ∃ l, x = .letter l ∧ cause = .unassigned l := by
  cases x with
  | numeral digits =>
    rw [toToken] at h
    split at h
    · cases h
    · cases h
      exact .inr (.inl ⟨digits, rfl, rfl⟩)
  | letter l =>
    rw [toToken, Memory.read] at h
    split at h
    · cases h
    · cases h
      exact .inr (.inr ⟨l, rfl, rfl⟩)
  | symbol s => cases h
  | stray c next =>
    rw [toToken] at h
    split at h
    · cases h
      exact .inl ⟨c, next, rfl, .inl rfl⟩
    · cases h
      exact .inl ⟨c, next, rfl, .inr rfl⟩

namespace Stack

variable {p : Precision} {m : Memory} {stack final : Stack} {x : Decimal}

/-- Push the token that a lexeme is, if it is one and is taken. -/
def pushLexeme? (p : Precision) (m : Memory) (stack : Stack) (x : Lexeme) : Option Stack :=
  match x.toToken m with
  | .ok token => (push p stack token).toOption
  | .error _ => none

/-- A stray character is no token. -/
theorem pushLexeme?_stray (c : Char) (next : Option Char) :
    pushLexeme? p m stack (.stray c next) = none := by
  rw [pushLexeme?, Lexeme.toToken]
  by_cases hc : Text.isLetter c = true
  · rw [if_pos hc]
  · rw [if_neg hc]

/-- Push the tokens that lexemes are, if all are tokens and are taken. -/
def pushLexemes? (p : Precision) (m : Memory) (stack : Stack) (lexemes : List Lexeme) :
    Option Stack :=
  lexemes.foldlM (pushLexeme? p m) stack

/-- Without lexemes nothing happens. -/
@[simp] theorem pushLexemes?_nil : pushLexemes? p m stack [] = some stack := rfl

/-- The first lexeme is pushed first. -/
theorem pushLexemes?_cons (x : Lexeme) (rest : List Lexeme) :
    pushLexemes? p m stack (x :: rest) =
      (pushLexeme? p m stack x).bind (pushLexemes? p m · rest) := by
  rw [pushLexemes?, List.foldlM_cons]
  rfl

/-- One lexeme is pushed as such. -/
theorem pushLexemes?_singleton (x : Lexeme) :
    pushLexemes? p m stack [x] = pushLexeme? p m stack x := by
  rw [pushLexemes?_cons]
  cases pushLexeme? p m stack x with
  | none => rfl
  | some next => rfl

/-- Two lists of lexemes are pushed one after the other. -/
theorem pushLexemes?_append (first second : List Lexeme) :
    pushLexemes? p m stack (first ++ second) =
      (pushLexemes? p m stack first).bind (pushLexemes? p m · second) := by
  rw [pushLexemes?, List.foldlM_append]
  rfl

/-- Lexemes are pushed exactly if the scanner finds nothing wrong and their tokens are pushed. -/
theorem pushLexemes?_eq_some_iff {lexemes : List Lexeme} (offset : Nat) :
    pushLexemes? p m stack lexemes = some final ↔
      (Reading.ofLexemes m offset lexemes).failure = none ∧
      pushMany p stack ((Reading.ofLexemes m offset lexemes).tokens.map Prod.snd) = .ok final := by
  induction lexemes generalizing stack offset with
  | nil => simp [Reading.ofLexemes]
  | cons x rest ih =>
    rw [pushLexemes?_cons, pushLexeme?, Reading.ofLexemes]
    cases hx : x.toToken m with
    | error cause => simp
    | ok token =>
      simp only [List.map_cons, pushMany_cons]
      cases hpush : push p stack token with
      | ok next => exact ih (offset + x.length)
      | error refusal => simp [bind, Except.bind, Except.toOption]

/-- Lexemes that can be pushed are tokens, and pushing these does the same on any stack. -/
theorem exists_tokens_of_pushLexemes? {lexemes : List Lexeme}
    (h : pushLexemes? p m stack lexemes = some final) :
    ∃ tokens, ∀ other : Stack,
      pushLexemes? p m other lexemes = (pushMany p other tokens).toOption := by
  refine ⟨(Reading.ofLexemes m 0 lexemes).tokens.map Prod.snd, ?_⟩
  intro other
  have scanned := ((pushLexemes?_eq_some_iff 0).mp h).1
  apply Option.ext
  intro next
  rw [pushLexemes?_eq_some_iff 0, toOption_eq_some]
  simp [scanned]

/-- A stack has come down to a number if that is all there is. -/
theorem result_eq_ok : result stack = .ok x ↔ stack = [.number x] := by
  unfold result
  split
  · simp
  · next token hn =>
    constructor
    · intro h
      cases h
    · intro h
      exact absurd h (by simpa using fun heq : token = .number x ↦ hn x (by rw [heq]))
  · next hn =>
    constructor
    · intro h
      cases h
    · intro h
      exact absurd h (hn _)

/-- Only proper lexemes of a text are pushed. -/
theorem proper_of_subset {text : List Char} {lexemes : List Lexeme}
    (hl : lexemes ⊆ Lexeme.split text) (h : pushLexemes? p m stack lexemes = some final) :
    ∀ x ∈ lexemes, x.Proper := by
  induction lexemes generalizing stack with
  | nil => exact nofun
  | cons x rest ih =>
    obtain ⟨hx, hrest⟩ := List.cons_subset.mp hl
    rw [pushLexemes?_cons] at h
    obtain ⟨next, hfirst, hlater⟩ := Option.bind_eq_some_iff.mp h
    refine List.forall_mem_cons.mpr ⟨?_, ih hrest hlater⟩
    rcases Lexeme.proper_or_stray_of_mem hx with proper | ⟨c, following, rfl⟩
    · exact proper
    · rw [pushLexeme?_stray] at hfirst
      cases hfirst

/-- Only proper lexemes are pushed from a text. -/
theorem proper_of_pushLexemes? {text : List Char}
    (h : pushLexemes? p m stack (Lexeme.split text) = some final) :
    ∀ x ∈ Lexeme.split text, x.Proper := proper_of_subset (List.Subset.refl _) h

end Stack

open Stack

/-- The tokens of an expression are pushed, and then it is concluded what they came down to. -/
theorem evaluateExpression_result {p : Precision} {m : Memory} {text : List Char} {start : Nat} :
    (evaluateExpression p m text start).result =
      (pushAll p [] (Reading.scan m text start).tokens).result >>=
        concludeExpression (Reading.scan m text start).failure := rfl

/-- An expression has a value exactly if its lexemes are pushed and leave that number alone. -/
theorem evaluateExpression_result_eq_ok {p : Precision} {m : Memory} {text : List Char}
    {start : Nat} {x : Decimal} :
    (evaluateExpression p m text start).result = .ok x ↔
      pushLexemes? p m [] (Lexeme.split (text.drop start)) = some [.number x] := by
  rw [evaluateExpression_result, bind_eq_ok, pushLexemes?_eq_some_iff start]
  change _ ↔ (Reading.scan m text start).failure = none ∧ _
  constructor
  · rintro ⟨stack, hrun, hend⟩
    unfold concludeExpression at hend
    cases hfailure : (Reading.scan m text start).failure with
    | some failure =>
      rw [hfailure] at hend
      cases hend
    | none =>
      rw [hfailure] at hend
      obtain rfl := result_eq_ok.mp (mapError_eq_ok.mp hend)
      exact ⟨rfl, pushAll_result_eq_ok.mp hrun⟩
  · rintro ⟨hfailure, hpush⟩
    refine ⟨[.number x], pushAll_result_eq_ok.mpr hpush, ?_⟩
    rw [hfailure]
    rfl

/-- A text of proper lexemes has no colon in it. -/
theorem colon_not_mem_of_proper {text : List Char} (h : ∀ x ∈ Lexeme.split text, x.Proper) :
    ':' ∉ text := by
  intro hmem
  rw [← Lexeme.flatMap_text_split text] at hmem
  obtain ⟨x, hx, hcolon⟩ := List.mem_flatMap.mp hmem
  exact Lexeme.colon_not_mem_text (h x hx) hcolon

section

variable {p : Precision} {m : Memory} {c : Char} {rest text : List Char} {x : Decimal}

/-- Without a letter before the colon nothing is evaluated. -/
theorem evaluateLine_badName (hc : Letter.ofChar? c = none) :
    evaluateLine p m (c :: ':' :: rest) =
      ⟨[], .error (.complaint (.bare (.badName [c]) (some 0))), m⟩ := by
  simp only [evaluateLine, hc]

/-- An assignment stores the value of the expression behind the colon. -/
theorem evaluateLine_assignment {letter : Letter} (hc : Letter.ofChar? c = some letter)
    (hx : (evaluateExpression p m (c :: ':' :: rest) 2).result = .ok x) :
    evaluateLine p m (c :: ':' :: rest) =
      ⟨(evaluateExpression p m (c :: ':' :: rest) 2).trace ++ [.assigned letter x],
        .ok .assignment, m.put letter x⟩ := by
  simp only [evaluateLine, hc, hx]

/-- An assignment without a value stores nothing. -/
theorem evaluateLine_failure {letter : Letter} {failure : Failure}
    (hc : Letter.ofChar? c = some letter)
    (hx : (evaluateExpression p m (c :: ':' :: rest) 2).result = .error failure) :
    evaluateLine p m (c :: ':' :: rest) =
      ⟨(evaluateExpression p m (c :: ':' :: rest) 2).trace, .error failure, m⟩ := by
  simp only [evaluateLine, hc, hx]

/-- A line that is no assignment is evaluated from its beginning. -/
theorem evaluateLine_expression (h : ∀ c rest, text ≠ c :: ':' :: rest) :
    evaluateLine p m text =
      ⟨(evaluateExpression p m text 0).trace, .value <$> (evaluateExpression p m text 0).result,
        m⟩ := by
  unfold evaluateLine
  split
  · next c rest => exact absurd rfl (h c rest)
  · rfl

/-- A line is an assignment without a letter, one to a letter, or an expression. -/
theorem line_cases (text : List Char) :
    (∃ c rest, text = c :: ':' :: rest ∧ Letter.ofChar? c = none) ∨
    (∃ c rest letter, text = c :: ':' :: rest ∧ Letter.ofChar? c = some letter) ∨
    ∀ c rest, text ≠ c :: ':' :: rest := by
  by_cases h : ∃ c rest, text = c :: ':' :: rest
  · obtain ⟨c, rest, rfl⟩ := h
    cases hc : Letter.ofChar? c with
    | none => exact .inl ⟨c, rest, rfl, hc⟩
    | some letter => exact .inr (.inl ⟨c, rest, letter, rfl, hc⟩)
  · refine .inr (.inr ?_)
    intro c rest heq
    exact h ⟨c, rest, heq⟩

/-- A line has a value exactly if its lexemes are pushed and leave that number alone. -/
theorem evaluateLine_result_eq_value :
    (evaluateLine p m text).result = .ok (.value x) ↔
      pushLexemes? p m [] (Lexeme.split text) = some [.number x] := by
  -- A line of assignment has no value, and its colon is stray.
  have noValue (c : Char) (rest : List Char) :
      pushLexemes? p m [] (Lexeme.split (c :: ':' :: rest)) ≠ some [.number x] := by
    intro h
    exact colon_not_mem_of_proper (proper_of_pushLexemes? h) (by simp)
  rcases line_cases text with ⟨c, rest, rfl, hc⟩ | ⟨c, rest, letter, rfl, hc⟩ | h
  · simp [evaluateLine_badName hc, noValue]
  · cases hx : (evaluateExpression p m (c :: ':' :: rest) 2).result with
    | ok y => simp [evaluateLine_assignment hc hx, noValue]
    | error failure => simp [evaluateLine_failure hc hx, noValue]
  · rw [evaluateLine_expression h, map_eq_ok]
    simp only [Yield.value.injEq, exists_eq_right]
    exact evaluateExpression_result_eq_ok

/-- Behind a colon an expression has the value that it has as a line of its own. -/
theorem evaluateExpression_behind_colon (c : Char) :
    (evaluateExpression p m (c :: ':' :: rest) 2).result = .ok x ↔
      (evaluateLine p m rest).result = .ok (.value x) := by
  rw [evaluateLine_result_eq_value, evaluateExpression_result_eq_ok]
  rfl

/-- An assignment goes through if the expression behind the colon has a value, and stores it. -/
theorem evaluateLine_assigns (letter : Letter)
    (hx : (evaluateLine p m rest).result = .ok (.value x)) :
    (evaluateLine p m (letter.toChar :: ':' :: rest)).result = .ok .assignment ∧
      (evaluateLine p m (letter.toChar :: ':' :: rest)).memory = m.put letter x := by
  have value := (evaluateExpression_behind_colon letter.toChar).mpr hx
  rw [evaluateLine_assignment (Letter.ofChar?_toChar letter) value]
  exact ⟨rfl, rfl⟩

/-- An assignment goes through only if the expression behind the colon has a value. -/
theorem exists_value_of_assigned (letter : Letter)
    (h : (evaluateLine p m (letter.toChar :: ':' :: rest)).result = .ok .assignment) :
    ∃ x, (evaluateLine p m rest).result = .ok (.value x) := by
  cases hx : (evaluateExpression p m (letter.toChar :: ':' :: rest) 2).result with
  | ok x => exact ⟨x, (evaluateExpression_behind_colon letter.toChar).mp hx⟩
  | error failure =>
    rw [evaluateLine_failure (Letter.ofChar?_toChar letter) hx] at h
    cases h

/-- Only an assignment that goes through changes a variable: then a letter stands before the colon,
and what it gets is the value of the expression behind. -/
theorem evaluateLine_memory (p : Precision) (m : Memory) (text : List Char) :
    (∃ letter rest x, text = letter.toChar :: ':' :: rest ∧
      (evaluateLine p m rest).result = .ok (.value x) ∧
      (evaluateLine p m text).result = .ok .assignment ∧
      (evaluateLine p m text).memory = m.put letter x) ∨
    (evaluateLine p m text).result ≠ .ok .assignment ∧ (evaluateLine p m text).memory = m := by
  rcases line_cases text with ⟨c, rest, rfl, hc⟩ | ⟨c, rest, letter, rfl, hc⟩ | h
  · rw [evaluateLine_badName hc]
    exact .inr ⟨by simp, rfl⟩
  · cases hx : (evaluateExpression p m (c :: ':' :: rest) 2).result with
    | ok x =>
      have value := (evaluateExpression_behind_colon c).mp hx
      rw [evaluateLine_assignment hc hx]
      have hletter := Letter.toChar_of_ofChar? hc
      exact .inl ⟨letter, rest, x, by rw [hletter], value, rfl, rfl⟩
    | error failure =>
      rw [evaluateLine_failure hc hx]
      exact .inr ⟨by simp, rfl⟩
  · rw [evaluateLine_expression h]
    refine .inr ⟨?_, rfl⟩
    intro assigned
    obtain ⟨x, -, hx⟩ := map_eq_ok.mp assigned
    cases hx

/-- The letter and the number of an assignment that goes through: a letter before a colon, and the
value of the expression behind. -/
def assignment? (p : Precision) (m : Memory) (text : List Char) : Option (Letter × Decimal) :=
  match text with
  | c :: ':' :: expression =>
    match Letter.ofChar? c, (evaluateLine p m expression).result with
    | some letter, .ok (.value x) => some (letter, x)
    | _, _ => none
  | _ => none

/-- What an assignment stores, and where, is what stands on the two sides of its colon. -/
theorem assignment?_eq_some {letter : Letter} :
    assignment? p m text = some (letter, x) ↔
      ∃ expression, text = letter.toChar :: ':' :: expression ∧
        (evaluateLine p m expression).result = .ok (.value x) := by
  constructor
  · intro h
    unfold assignment? at h
    split at h
    · next c expression =>
      split at h
      · next l y hc hy =>
        cases h
        exact ⟨expression, by rw [Letter.toChar_of_ofChar? hc], hy⟩
      · cases h
    · cases h
  · rintro ⟨expression, rfl, hx⟩
    simp [assignment?, Letter.ofChar?_toChar, hx]

/-- After a line the memory is the one before, with what the line assigns put into its slot. -/
theorem memory_evaluateLine (p : Precision) (m : Memory) (text : List Char) :
    (evaluateLine p m text).memory =
      (assignment? p m text).elim m fun entry ↦ m.put entry.1 entry.2 := by
  cases hstored : assignment? p m text with
  | some entry =>
    obtain ⟨expression, rfl, value⟩ := assignment?_eq_some.mp hstored
    exact (evaluateLine_assigns entry.1 value).2
  | none =>
    rcases evaluateLine_memory p m text with ⟨letter, rest, x, rfl, value, -, -⟩ | ⟨-, unchanged⟩
    · have found : assignment? p m (letter.toChar :: ':' :: rest) = some (letter, x) :=
        assignment?_eq_some.mpr ⟨rest, rfl, value⟩
      cases hstored.symm.trans found
    · exact unchanged

/-- A letter alone has the value of the variable. -/
theorem evaluateLine_letter {letter : Letter} :
    (evaluateLine p m [letter.toChar]).result = .ok (.value x) ↔ m.value? letter = some x := by
  have cut : Lexeme.split [letter.toChar] = [.letter letter] := by
    have first := Lexeme.first_letter (Letter.ofChar?_toChar letter) ([] ++ [])
    have whole := Lexeme.split_cons_append first rfl
    rwa [Lexeme.split_nil] at whole
  rw [evaluateLine_result_eq_value, cut, pushLexemes?_singleton, pushLexeme?, Lexeme.toToken,
    Memory.read]
  cases m.value? letter with
  | none =>
    change none = some _ ↔ none = some x
    simp
  | some y =>
    change some [Token.number y] = some [.number x] ↔ some y = some x
    simp

/-- An expression has a value, or something is wrong with the line: no operator lacks an operand. -/
theorem evaluateExpression_ne_breach {start : Nat} :
    (evaluateExpression p m text start).result ≠ .error .breach := by
  intro h
  rw [evaluateExpression_result] at h
  rcases bind_eq_error.mp h with pushing | ⟨stack, -, ending⟩
  · obtain ⟨rest, breach⟩ := exists_breach_of_pushAll pushing
    have empty : WellShaped [] := trivial
    exact empty.pushMany_ne_breach breach
  · unfold concludeExpression at ending
    split at ending
    · cases ending
    · obtain ⟨cause, -, hcause⟩ := mapError_eq_error.mp ending
      cases hcause

/-- A line has an outcome, or something is wrong with it: no operator lacks an operand. -/
theorem evaluateLine_ne_breach (p : Precision) (m : Memory) (text : List Char) :
    (evaluateLine p m text).result ≠ .error .breach := by
  rcases line_cases text with ⟨c, rest, rfl, hc⟩ | ⟨c, rest, letter, rfl, hc⟩ | h
  · simp [evaluateLine_badName hc]
  · cases hx : (evaluateExpression p m (c :: ':' :: rest) 2).result with
    | ok x => simp [evaluateLine_assignment hc hx]
    | error failure =>
      rw [evaluateLine_failure hc hx]
      intro breach
      cases breach
      exact evaluateExpression_ne_breach hx
  · rw [evaluateLine_expression h]
    intro breach
    cases hx : (evaluateExpression p m text 0).result with
    | ok x =>
      rw [hx] at breach
      cases breach
    | error failure =>
      rw [hx] at breach
      cases breach
      exact evaluateExpression_ne_breach hx

end

end FuzzyCalc
