import FuzzyCalc.Proofs.Diagnosis

/-!
# Complaints are final

Whatever goes wrong at a lexeme is settled there: the lexemes up to it are found by looking at one
character more, and no token behind it has been pushed. So a line that goes on in another way behind
that character ends with the same complaint after the same trace, and changes no variable either.
-/

namespace FuzzyCalc

open Stack

/-! ### One character more -/

/-- A list that agrees with another beyond a part at its front begins with that part. -/
theorem exists_eq_append_of_take {α : Type} (front : List α) {after other : List α} {k : Nat}
    (h : other.take (front.length + k) = (front ++ after).take (front.length + k)) :
    ∃ rest, other = front ++ rest ∧ rest.take k = after.take k := by
  have begins : other.take front.length = front := by
    have taken := congrArg (List.take front.length) h
    rwa [List.take_take, List.take_take, Nat.min_eq_left (Nat.le_add_right _ _),
      List.take_left] at taken
  have whole := List.take_append_drop front.length other
  rw [begins] at whole
  refine ⟨other.drop front.length, whole.symm, ?_⟩
  have dropped := congrArg (List.drop front.length) h
  rwa [List.drop_take, List.drop_take, Nat.add_sub_cancel_left, List.drop_left] at dropped

namespace Lexeme

/-- The lexeme at the front of a text depends on what is behind it through the next character
only. -/
theorem first_congr {c : Char} {piece after other : List Char}
    (ht : (first c (piece ++ after)).text = c :: piece) (next : other.head? = after.head?) :
    first c (piece ++ other) = first c (piece ++ after) := by
  have seam : ∀ d ∈ other.head?, (first c (piece ++ after)).fuses d = false := by
    rw [next]
    exact not_fuses_first rfl ht
  rcases proper_or_stray c (piece ++ after) with proper | stray
  · exact first_of_text proper ht seam
  · rw [stray] at ht seam
    obtain ⟨-, rfl⟩ := List.cons.inj ht
    rw [List.nil_append, first_stray stray seam, next, stray]
    rfl

/-- A text that agrees with another up to one character behind some lexemes begins with these
lexemes. -/
theorem prefix_split_of_take {lexemes : List Lexeme} {text other : List Char}
    (h : lexemes <+: split text)
    (agree : other.take ((lexemes.flatMap Lexeme.text).length + 1) =
      text.take ((lexemes.flatMap Lexeme.text).length + 1)) :
    lexemes <+: split other := by
  induction text using split_induction generalizing lexemes other with
  | nil =>
    rw [split_nil, List.prefix_nil] at h
    rw [h]
    exact List.nil_prefix
  | cons c piece after ht hcut ih =>
    cases lexemes with
    | nil => exact List.nil_prefix
    | cons x later =>
      rw [hcut, List.cons_prefix_cons] at h
      obtain ⟨rfl, hlater⟩ := h
      rw [List.flatMap_cons, List.length_append, Nat.add_assoc, ht, ← List.cons_append] at agree
      obtain ⟨rest, rfl, hrest⟩ := exists_eq_append_of_take _ agree
      have next : rest.head? = after.head? := by
        have ends := congrArg List.head? hrest
        rwa [List.head?_take, List.head?_take, if_neg (Nat.succ_ne_zero _),
          if_neg (Nat.succ_ne_zero _)] at ends
      have same := first_congr ht next
      rw [List.cons_append, split_cons_append same ht, List.cons_prefix_cons]
      exact ⟨rfl, ih hlater hrest⟩

end Lexeme

/-! ### One lexeme -/

section

variable {p : Precision} {m : Memory} {stack reached : Stack} {text other : List Char}

/-- Lexemes that are pushed leave their trace, and what comes behind them goes on from the stack
that they leave. -/
theorem Reading.run_append {before : List Lexeme} (offset : Nat)
    (h : pushLexemes? p m stack before = some reached) (behind : List Lexeme) :
    let n := offset + (before.flatMap Lexeme.text).length
    (pushAll p stack (ofLexemes m offset (before ++ behind)).tokens).trace =
        (pushAll p stack (ofLexemes m offset before).tokens).trace ++
          (pushAll p reached (ofLexemes m n behind).tokens).trace ∧
      outcome p stack (ofLexemes m offset (before ++ behind)) =
        outcome p reached (ofLexemes m n behind) := by
  induction before generalizing stack offset with
  | nil =>
    cases h
    exact ⟨rfl, rfl⟩
  | cons x rest ih =>
    rw [pushLexemes?_cons] at h
    obtain ⟨next, first, later⟩ := Option.bind_eq_some_iff.mp h
    obtain ⟨traces, ends⟩ := ih (offset + x.length) later
    unfold pushLexeme? at first
    cases hx : x.toToken m with
    | error cause =>
      rw [hx] at first
      cases first
    | ok token =>
      rw [hx] at first
      have taken := toOption_eq_some.mp first
      rw [List.flatMap_cons, List.length_append, ← Lexeme.length, ← Nat.add_assoc]
      simp only [List.cons_append, ofLexemes, hx, pushAll, taken, outcome]
      refine ⟨?_, ends⟩
      rw [traces]

/-- Whether a reading goes wrong at its first lexeme does not depend on the others. -/
theorem Reading.FailsAt.of_cons {x : Lexeme} {rest : List Lexeme} {n : Nat} {cause : Cause}
    (h : (ofLexemes m n (x :: rest)).FailsAt p stack n cause) (others : List Lexeme) :
    (ofLexemes m n (x :: others)).FailsAt p stack n cause := by
  rw [ofLexemes] at h ⊢
  cases hx : x.toToken m with
  | error found =>
    rw [hx] at h
    cases h
    exact .scanner cause
  | ok token =>
    rw [hx] at h
    cases h with
    | stack _ _ refused => exact .stack _ _ refused

/-- A reading that goes wrong at once leaves no trace, and that is the complaint. -/
theorem Reading.FailsAt.run_eq {reading : Reading} {n : Nat} {cause : Cause}
    (h : reading.FailsAt p stack n cause) :
    (pushAll p stack reading.tokens).trace = [] ∧
      reading.outcome p stack = .error (.complaint ⟨cause, some stack.residue, some n⟩) := by
  cases h with
  | scanner => exact ⟨rfl, rfl⟩
  | stack tokens failure refused =>
    simp only [outcome, pushAll, refused, true_and]
    rfl

/-- Only a single character is complained about as stray or as a name. -/
theorem Reading.FailsAt.length_eq_one {x : Lexeme} {rest : List Lexeme} {n : Nat} {cause : Cause}
    (hs : WellShaped stack) (h : (ofLexemes m n (x :: rest)).FailsAt p stack n cause)
    (stray : (∃ name, cause = .badName name) ∨ ∃ c next, cause = .strayCharacter c next) :
    x.length = 1 := by
  rw [ofLexemes] at h
  cases hx : x.toToken m with
  | error found =>
    rw [hx] at h
    cases h
    rcases x.toToken_eq_error hx with ⟨c, next, rfl, -⟩ | ⟨digits, -, rfl⟩ | ⟨l, -, rfl⟩
    · rfl
    · simp at stray
    · simp at stray
  | ok token =>
    rw [hx] at h
    cases h with
    | stack _ _ refused =>
      rcases hs.kind_of_fault refused with hkind | hkind
      · rcases stray with ⟨name, rfl⟩ | ⟨c, next, rfl⟩
        · cases hkind
        · cases hkind
      · rcases stray with ⟨name, rfl⟩ | ⟨c, next, rfl⟩
        · cases hkind
        · cases hkind

/-! ### Expressions and lines -/

/-- An expression is evaluated by reading its lexemes. -/
theorem evaluateExpression_eq (text : List Char) (start : Nat) :
    evaluateExpression p m text start =
      let reading := Reading.ofLexemes m start (Lexeme.split (text.drop start))
      ⟨(pushAll p [] reading.tokens).trace, reading.outcome p []⟩ := rfl

/-- A complaint about an expression that points at an offset is settled by the lexeme there: an
expression that goes on in another way one character behind it is evaluated to the same complaint,
with the same trace. -/
theorem evaluateExpression_final {start n : Nat} {complaint : Complaint}
    (h : (evaluateExpression p m text start).result = .error (.complaint complaint))
    (hn : complaint.offset = some n) :
    n < text.length ∧
    ∃ x, (Lexeme.split (text.drop n)).head? = some x ∧
      ((∃ name, complaint.cause = .badName name) ∨
        (∃ c next, complaint.cause = .strayCharacter c next) → x.length = 1) ∧
      ∀ other : List Char, other.take (n + x.length + 1) = text.take (n + x.length + 1) →
        evaluateExpression p m other start = evaluateExpression p m text start := by
  rcases Reading.failsAt_or_result h with
    ⟨before, behind, reached, cause, n', hsplit, hstart, hpushed, fails, rfl⟩ |
    ⟨final, cause, hpushed, hresult, rfl⟩
  · cases hn
    cases behind with
    | nil => exact absurd rfl fails.ne_nil
    | cons x rest =>
      have cutBehind := Lexeme.split_drop hsplit
      have lexemes : before ++ [x] <+: Lexeme.split (text.drop start) := by
        rw [hsplit]
        exact ⟨rest, by simp⟩
      have shape : WellShaped reached := by
        have empty : WellShaped [] := trivial
        exact empty.pushMany ((pushLexemes?_eq_some_iff 0).mp hpushed).2
      refine ⟨?_, x, ?_, fails.length_eq_one shape, ?_⟩
      · -- There is a lexeme left, and so a character.
        refine Nat.lt_of_not_le fun beyond ↦ ?_
        rw [← hstart, List.drop_eq_nil_of_le beyond, Lexeme.split_nil] at cutBehind
        cases cutBehind
      · rw [hstart, cutBehind]
        rfl
      · intro other agree
        have agreeBehind := congrArg (List.drop start) agree
        have length : n + x.length + 1 - start =
            ((before ++ [x]).flatMap Lexeme.text).length + 1 := by
          rw [List.flatMap_append, List.length_append, List.flatMap_singleton, ← Lexeme.length]
          omega
        rw [List.drop_take, List.drop_take, length] at agreeBehind
        obtain ⟨others, hothers⟩ := Lexeme.prefix_split_of_take lexemes agreeBehind
        rw [List.append_assoc, List.singleton_append] at hothers
        obtain ⟨trace, ends⟩ := Reading.run_append start hpushed (x :: rest)
        obtain ⟨otherTrace, otherEnds⟩ := Reading.run_append start hpushed (x :: others)
        rw [← hstart] at trace ends otherTrace otherEnds
        obtain ⟨none, stops⟩ := fails.run_eq
        obtain ⟨otherNone, otherStops⟩ := (fails.of_cons others).run_eq
        rw [evaluateExpression_eq, evaluateExpression_eq, ← hothers, hsplit]
        simp only [trace, ends, otherTrace, otherEnds, none, stops, otherNone, otherStops]
  · cases hn

/-- Lines with the same two characters in front are evaluated in the same way if their expressions
are. -/
theorem evaluateLine_congr (form : other.take 2 = text.take 2)
    (same : evaluateExpression p m other (expressionStart text) =
      evaluateExpression p m text (expressionStart text)) :
    evaluateLine p m other = evaluateLine p m text := by
  rcases line_cases text with ⟨c, rest, rfl, hc⟩ | ⟨c, rest, letter, rfl, hc⟩ | expression
  · obtain ⟨others, rfl, -⟩ := exists_eq_append_of_take [c, ':'] (k := 0) form
    rw [evaluateLine_badName hc]
    exact evaluateLine_badName hc
  · obtain ⟨others, rfl, -⟩ := exists_eq_append_of_take [c, ':'] (k := 0) form
    change evaluateExpression p m (c :: ':' :: others) 2 = _ at same
    change evaluateLine p m (c :: ':' :: others) = _
    simp only [evaluateLine, hc, same]
    rfl
  · have otherExpression : ∀ c rest, other ≠ c :: ':' :: rest := by
      rintro c rest rfl
      obtain ⟨others, htext, -⟩ := exists_eq_append_of_take [c, ':'] (k := 0) form.symm
      exact expression c others htext
    rw [expressionStart_of_expression expression] at same
    rw [evaluateLine_expression expression, evaluateLine_expression otherExpression, same]

end

/-- A reported failure is final. If a complaint points at an offset, then a lexeme begins there, of
one character if that is stray or no name; and every line that agrees with this one up to one
character behind the lexeme is evaluated to the same complaint, with the same trace, and changes no
variable: nothing further on in the line matters. -/
theorem evaluateLine_complaint_final (p : Precision) (m : Memory) (text : List Char)
    (complaint : Complaint) (n : Nat)
    (h : (evaluateLine p m text).result = .error (.complaint complaint))
    (hn : complaint.offset = some n) :
    n < text.length ∧
    ∃ x, (Lexeme.split (text.drop n)).head? = some x ∧
      ((∃ name, complaint.cause = .badName name) ∨
        (∃ c next, complaint.cause = .strayCharacter c next) → x.length = 1) ∧
      ∀ other : List Char, other.take (n + x.length + 1) = text.take (n + x.length + 1) →
        (evaluateLine p m other).result = .error (.complaint complaint) ∧
        (evaluateLine p m other).trace = (evaluateLine p m text).trace ∧
        (evaluateLine p m other).memory = m := by
  have kept : (evaluateLine p m text).memory = m := by
    rcases evaluateLine_memory p m text with ⟨-, -, -, -, -, assigned, -⟩ | ⟨-, kept⟩
    · cases h.symm.trans assigned
    · exact kept
  have final {other : List Char} (same : evaluateLine p m other = evaluateLine p m text) :
      (evaluateLine p m other).result = .error (.complaint complaint) ∧
        (evaluateLine p m other).trace = (evaluateLine p m text).trace ∧
        (evaluateLine p m other).memory = m := by
    rw [same]
    exact ⟨h, rfl, kept⟩
  rcases evaluateLine_error h with ⟨c, rest, rfl, hc, heq⟩ | failed
  · cases heq
    cases hn
    have alone := Lexeme.length_first_colon c rest
    refine ⟨Nat.succ_pos _, Lexeme.first c (':' :: rest), ?_, fun _ ↦ alone, ?_⟩
    · rw [List.drop_zero, Lexeme.split]
      rfl
    · intro other agree
      rw [alone] at agree
      obtain ⟨others, rfl, -⟩ := exists_eq_append_of_take [c, ':'] (k := 0) agree
      refine final ?_
      rw [evaluateLine_badName hc]
      exact evaluateLine_badName hc
  · obtain ⟨hlength, x, hx, hone, same⟩ := evaluateExpression_final failed hn
    refine ⟨hlength, x, hx, hone, fun other agree ↦ ?_⟩
    refine final (evaluateLine_congr ?_ (same other agree))
    have two : 2 ≤ n + x.length + 1 := by
      have positive := Lexeme.length_pos_of_mem (List.mem_of_head? hx)
      omega
    have form := congrArg (List.take 2) agree
    rwa [List.take_take, List.take_take, Nat.min_eq_left two] at form

/-- The line `x:1<2)9` is refused at its parenthesis, and so is every line that begins like this,
though what follows may not even be scanned. -/
theorem evaluateLine_complaint_final_parenthesis :
    let text := ['x', ':', '1', '<', '2', ')', '9']
    ∃ complaint, (evaluateLine .standard .empty text).result = .error (.complaint complaint) ∧
      complaint.offset = some 5 ∧
      ∀ rest : List Char,
        (evaluateLine .standard .empty (text ++ rest)).result = .error (.complaint complaint) ∧
        (evaluateLine .standard .empty (text ++ rest)).trace =
          (evaluateLine .standard .empty text).trace ∧
        (evaluateLine .standard .empty (text ++ rest)).memory = .empty := by
  intro text
  have failed : (evaluateLine .standard .empty text).result =
      .error (.complaint ⟨.closingUnmatched .one, some [.number .one], some 5⟩) := by
    decide +kernel
  have parenthesis : (Lexeme.split (text.drop 5)).head? = some (.symbol (.separator .closing)) := by
    decide +kernel
  obtain ⟨-, x, hx, -, same⟩ := evaluateLine_complaint_final .standard .empty text _ 5 failed rfl
  cases parenthesis.symm.trans hx
  exact ⟨_, failed, rfl, fun rest ↦ same (text ++ rest) rfl⟩

end FuzzyCalc
