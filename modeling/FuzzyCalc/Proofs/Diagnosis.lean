import FuzzyCalc.Proofs.Assignment

/-!
# What a complaint tells

A complaint with an offset points at the lexeme that could not be used: what is before it can be
read by itself, and the stack that this leaves is the one that the complaint quotes. A complaint
without an offset quotes what is left after the whole expression, and that is not a single number.
-/

namespace FuzzyCalc

open Stack

/-- A text is scanned to its end, and its tokens are taken one after the other and leave a stack. -/
def Stack.Reads (p : Precision) (m : Memory) (text : List Char) (stack : Stack) : Prop :=
  (Reading.scan m text 0).failure = none ∧
    pushMany p [] ((Reading.scan m text 0).tokens.map Prod.snd) = .ok stack

/-- How a reading that begins at an offset goes wrong there, on a stack. -/
inductive Reading.FailsAt (p : Precision) (stack : Stack) (offset : Nat) : Reading → Cause → Prop
  /-- The scanner finds a lexeme that is no token. -/
  | scanner (cause : Cause) : FailsAt p stack offset ⟨[], some (offset, cause)⟩ cause
  /-- The stack refuses the token. -/
  | stack {token : Token} {cause : Cause} (tokens : List (Nat × Token))
    (failure : Option (Nat × Cause)) (h : push p stack token = .error (.fault cause)) :
    FailsAt p stack offset ⟨(offset, token) :: tokens, failure⟩ cause

/-- Where the expression of a line begins: behind the colon of an assignment, or at once. -/
def expressionStart : List Char → Nat
  | _ :: ':' :: _ => 2
  | _ => 0

variable {p : Precision} {m : Memory} {text : List Char}

/-! ### Expressions -/

/-- A text is read if its lexemes are pushed. -/
theorem Stack.reads_iff {stack : Stack} :
    Reads p m text stack ↔ pushLexemes? p m [] (Lexeme.split text) = some stack :=
  (pushLexemes?_eq_some_iff 0).symm

/-- Without lexemes nothing goes wrong. -/
theorem Reading.FailsAt.ne_nil {stack : Stack} {offset : Nat} {lexemes : List Lexeme}
    {cause : Cause} (h : (ofLexemes m offset lexemes).FailsAt p stack offset cause) :
    lexemes ≠ [] := by
  rintro rfl
  cases h

/-- What a reading comes down to on a stack. -/
def Reading.outcome (p : Precision) (stack : Stack) (reading : Reading) : Except Failure Decimal :=
  (pushAll p stack reading.tokens).result >>= concludeExpression reading.failure

/-- What becomes of a lexeme: it is pushed and the others go on from there, or something goes wrong
and that is the complaint, or there is a breach. -/
theorem Reading.outcome_cons (p : Precision) (m : Memory) (stack : Stack) (offset : Nat)
    (x : Lexeme) (rest : List Lexeme) :
    (∃ next, pushLexeme? p m stack x = some next ∧
      outcome p stack (ofLexemes m offset (x :: rest)) =
        outcome p next (ofLexemes m (offset + x.length) rest)) ∨
    (∃ cause, (ofLexemes m offset (x :: rest)).FailsAt p stack offset cause ∧
      outcome p stack (ofLexemes m offset (x :: rest)) =
        .error (.complaint ⟨cause, some stack.residue, some offset⟩)) ∨
    outcome p stack (ofLexemes m offset (x :: rest)) = .error .breach := by
  rw [ofLexemes]
  cases hx : x.toToken m with
  | error cause => exact .inr (.inl ⟨cause, .scanner cause, rfl⟩)
  | ok token =>
    simp only [outcome, pushAll, pushLexeme?, hx]
    cases hpush : push p stack token with
    | ok next => exact .inl ⟨next, rfl, rfl⟩
    | error refusal =>
      cases refusal with
      | fault cause => exact .inr (.inl ⟨cause, .stack _ _ hpush, rfl⟩)
      | breach below => exact .inr (.inr rfl)

/-- Lexemes that are complained about are pushed up to one where something goes wrong, or to the
end. -/
theorem Reading.failsAt_or_result {lexemes : List Lexeme} {stack : Stack} {offset : Nat}
    {complaint : Complaint}
    (h : outcome p stack (ofLexemes m offset lexemes) = .error (.complaint complaint)) :
    (∃ before behind reached cause n, lexemes = before ++ behind ∧
      n = offset + (before.flatMap Lexeme.text).length ∧
      pushLexemes? p m stack before = some reached ∧
      (ofLexemes m n behind).FailsAt p reached n cause ∧
      complaint = ⟨cause, some reached.residue, some n⟩) ∨
    ∃ final cause, pushLexemes? p m stack lexemes = some final ∧
      final.result = .error cause ∧ complaint = .bare cause none := by
  induction lexemes generalizing stack offset with
  | nil =>
    obtain ⟨cause, hcause, heq⟩ := mapError_eq_error.mp h
    cases heq
    exact .inr ⟨stack, cause, rfl, hcause, rfl⟩
  | cons x rest ih =>
    rcases outcome_cons p m stack offset x rest with
      ⟨next, first, goesOn⟩ | ⟨cause, fails, stops⟩ | breach
    · rw [goesOn] at h
      rcases ih h with
        ⟨before, behind, reached, cause, n, rfl, hn, hpushed, fails, hcomplaint⟩ |
        ⟨final, cause, hpushed, hresult, hcomplaint⟩
      · refine .inl ⟨x :: before, behind, reached, cause, n, rfl, ?_, ?_, fails, hcomplaint⟩
        · rw [hn, List.flatMap_cons, List.length_append, Lexeme.length, Nat.add_assoc]
        · rw [pushLexemes?_cons, first]
          exact hpushed
      · refine .inr ⟨final, cause, ?_, hresult, hcomplaint⟩
        rw [pushLexemes?_cons, first]
        exact hpushed
    · cases stops.symm.trans h
      exact .inl ⟨[], x :: rest, stack, cause, offset, rfl, rfl, rfl, fails, rfl⟩
    · cases breach.symm.trans h

/-- A complaint about an expression points at an offset up to which the text is read by itself and
where something goes wrong then, or the whole text is read and does not come down to a number. -/
theorem evaluateExpression_complaint {start : Nat} {complaint : Complaint}
    (h : (evaluateExpression p m text start).result = .error (.complaint complaint)) :
    (∃ n reached cause, start ≤ n ∧ n < text.length ∧
      Reads p m ((text.take n).drop start) reached ∧
      (Reading.scan m text n).FailsAt p reached n cause ∧
      complaint = ⟨cause, some reached.residue, some n⟩) ∨
    ∃ final cause, Reads p m (text.drop start) final ∧ final.result = .error cause ∧
      complaint = .bare cause none := by
  rcases Reading.failsAt_or_result h with
    ⟨before, behind, reached, cause, n, hsplit, rfl, hpushed, fails, rfl⟩ |
    ⟨final, cause, hpushed, hresult, rfl⟩
  · have proper := proper_of_subset (hsplit ▸ List.subset_append_left before behind) hpushed
    have cutBehind := Lexeme.split_drop hsplit
    refine .inl ⟨_, reached, cause, Nat.le_add_right _ _, ?_, ?_, ?_, rfl⟩
    · -- There is a lexeme left, and so a character.
      refine Nat.lt_of_not_le fun beyond ↦ fails.ne_nil ?_
      rw [← cutBehind, List.drop_eq_nil_of_le beyond, Lexeme.split_nil]
    · rw [Lexeme.drop_take_split hsplit, reads_iff, Lexeme.split_flatMap_of_proper hsplit proper]
      exact hpushed
    · rw [Reading.scan, cutBehind]
      exact fails
  · exact .inr ⟨final, cause, reads_iff.mpr hpushed, hresult, rfl⟩

/-- A stack has not come down to a number if a symbol alone is left, or not one token. -/
theorem Stack.result_eq_error {stack : Stack} {cause : Cause} (h : stack.result = .error cause) :
    (∃ s, stack = [.symbol s] ∧ cause = .notANumber (.symbol s)) ∨
      stack.length ≠ 1 ∧ cause = .unreduced stack.residue := by
  unfold result at h
  split at h
  · cases h
  · next token notNumber =>
    cases h
    cases token with
    | number x => exact absurd rfl (notNumber x)
    | symbol s => exact .inl ⟨s, rfl, rfl⟩
  · next notSingle =>
    cases h
    refine .inr ⟨?_, rfl⟩
    intro single
    obtain ⟨token, rfl⟩ := List.length_eq_one_iff.mp single
    exact notSingle token rfl

/-! ### Lines -/

/-- A line that is no assignment is an expression from its beginning. -/
theorem expressionStart_of_expression (h : ∀ c rest, text ≠ c :: ':' :: rest) :
    expressionStart text = 0 := by
  unfold expressionStart
  split
  · next c rest => exact absurd rfl (h c rest)
  · rfl

/-- A line goes through because its expression has a value: that is the value of the line, or it is
put into a slot. -/
theorem evaluateLine_ok {yield : Yield} (h : (evaluateLine p m text).result = .ok yield) :
    ∃ x, (evaluateExpression p m text (expressionStart text)).result = .ok x ∧
      (yield = .value x ∧ (evaluateLine p m text).memory = m ∨
        ∃ letter, yield = .assignment ∧ (evaluateLine p m text).memory = m.put letter x) := by
  rcases line_cases text with ⟨c, rest, rfl, hc⟩ | ⟨c, rest, letter, rfl, hc⟩ | expression
  · rw [evaluateLine_badName hc] at h
    cases h
  · change ∃ x, (evaluateExpression p m (c :: ':' :: rest) 2).result = _ ∧ _
    cases hx : (evaluateExpression p m (c :: ':' :: rest) 2).result with
    | ok x =>
      rw [evaluateLine_assignment hc hx] at h ⊢
      cases h
      exact ⟨x, rfl, .inr ⟨letter, rfl, rfl⟩⟩
    | error failure =>
      rw [evaluateLine_failure hc hx] at h
      cases h
  · rw [evaluateLine_expression expression] at h ⊢
    rw [expressionStart_of_expression expression]
    obtain ⟨x, hx, value⟩ := map_eq_ok.mp h
    exact ⟨x, hx, .inl ⟨value.symm, rfl⟩⟩

/-- A line fails because its expression does, unless what stands before the colon is no letter. -/
theorem evaluateLine_error {failure : Failure}
    (h : (evaluateLine p m text).result = .error failure) :
    (∃ c rest, text = c :: ':' :: rest ∧ Letter.ofChar? c = none ∧
      failure = .complaint (.bare (.badName [c]) (some 0))) ∨
    (evaluateExpression p m text (expressionStart text)).result = .error failure := by
  rcases line_cases text with ⟨c, rest, rfl, hc⟩ | ⟨c, rest, letter, rfl, hc⟩ | expression
  · rw [evaluateLine_badName hc] at h
    cases h
    exact .inl ⟨c, rest, rfl, hc, rfl⟩
  · refine .inr ?_
    change (evaluateExpression p m (c :: ':' :: rest) 2).result = _
    cases hx : (evaluateExpression p m (c :: ':' :: rest) 2).result with
    | ok x =>
      rw [evaluateLine_assignment hc hx] at h
      cases h
    | error other =>
      rw [evaluateLine_failure hc hx] at h
      cases h
      rfl
  · refine .inr ?_
    rw [evaluateLine_expression expression] at h
    rw [expressionStart_of_expression expression]
    cases hx : (evaluateExpression p m text 0).result with
    | ok x =>
      rw [hx] at h
      cases h
    | error other =>
      rw [hx] at h
      cases h
      rfl

/-- Whatever goes wrong with a line is complained about. If the complaint has an offset, either the
line is an assignment to something else than a letter, and the offset is 0; or it lies in the
expression of the line, the text of the expression up to it is read by itself, the message quotes
the stack that this leaves, and there the scanner or that stack refuses what comes next, for the
cause that the message ends with. If the complaint has no offset, the whole expression is read but
not a single number is left: the message quotes all that is left, or the symbol if one symbol is
left. -/
theorem evaluateLine_complaint_points (p : Precision) (m : Memory) (text : List Char)
    (failure : Failure) (h : (evaluateLine p m text).result = .error failure) :
    ∃ complaint, failure = .complaint complaint ∧
      (∀ n, complaint.offset = some n →
        (∃ c rest, text = c :: ':' :: rest ∧ Letter.ofChar? c = none ∧ n = 0) ∨
        expressionStart text ≤ n ∧ n < text.length ∧
          ∃ stack cause, Reads p m ((text.take n).drop (expressionStart text)) stack ∧
            (Reading.scan m text n).FailsAt p stack n cause ∧
            complaint.message = "Expression reduced to \"" ++
              String.ofList (Token.spellAll stack.residue) ++ "...\" " ++ cause.message ++ ".") ∧
      (complaint.offset = none →
        ∃ stack, Reads p m (text.drop (expressionStart text)) stack ∧
          (∀ x, stack ≠ [.number x]) ∧
          ((∃ s : Symbol, stack = [.symbol s] ∧
              complaint.message =
                "Expression reduced to non-numeric token " ++ Cause.inQuotes s.spelling) ∨
            stack.length ≠ 1 ∧ complaint.message =
              "Expression reduced to " ++ Cause.inQuotes (Token.spellAll stack.residue))) := by
  rcases evaluateLine_error h with ⟨c, rest, rfl, hc, rfl⟩ | failed
  · refine ⟨_, rfl, ?_, nofun⟩
    intro n hn
    exact .inl ⟨c, rest, rfl, hc, (Option.some.inj hn).symm⟩
  · obtain ⟨complaint, rfl⟩ := exists_complaint failed
    refine ⟨complaint, rfl, ?_⟩
    rcases evaluateExpression_complaint failed with
      ⟨n, stack, cause, hstart, hlength, hreads, fails, rfl⟩ |
      ⟨stack, cause, hreads, hresult, rfl⟩
    · refine ⟨?_, nofun⟩
      intro n' hn
      cases hn
      exact .inr ⟨hstart, hlength, stack, cause, hreads, fails, rfl⟩
    · refine ⟨nofun, fun _ ↦ ⟨stack, hreads, ?_, ?_⟩⟩
      · rintro x rfl
        cases hresult
      · rcases result_eq_error hresult with ⟨s, rfl, rfl⟩ | ⟨hlength, rfl⟩
        · exact .inl ⟨s, rfl, rfl⟩
        · exact .inr ⟨hlength, rfl⟩

/-- The line `x:1<2)` is refused at offset 5: `1<2` is read, and the parenthesis is not. -/
theorem evaluateLine_complaint_points_parenthesis :
    let text := ['x', ':', '1', '<', '2', ')']
    ∃ complaint, (evaluateLine .standard .empty text).result = .error (.complaint complaint) ∧
      complaint.offset = some 5 ∧
      ∃ stack cause, Reads .standard .empty ['1', '<', '2'] stack ∧
        (Reading.scan .empty text 5).FailsAt .standard stack 5 cause := by
  intro text
  have failed : (evaluateLine .standard .empty text).result =
      .error (.complaint ⟨.closingUnmatched .one, some [.number .one], some 5⟩) := by
    decide +kernel
  obtain ⟨complaint, heq, points, -⟩ :=
    evaluateLine_complaint_points .standard .empty text _ failed
  cases heq
  rcases points 5 rfl with ⟨c, rest, -, -, hzero⟩ | ⟨-, -, stack, cause, hreads, fails, -⟩
  · cases hzero
  · exact ⟨_, failed, rfl, stack, cause, hreads, fails⟩

end FuzzyCalc
