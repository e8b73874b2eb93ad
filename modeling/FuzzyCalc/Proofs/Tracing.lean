import FuzzyCalc.Console.OneShot
import FuzzyCalc.Console.Prompt
import FuzzyCalc.Proofs.Concatenation
import FuzzyCalc.Proofs.SessionValues
import FuzzyCalc.Proofs.TraceLines

/-!
# What a trace tells

A trace has one line for each token that was taken, in the order of the expression and with what was
left right behind the token, and one more if a variable got a value. So it ends with what a
complaint quotes, or with the value of the expression. Whether lines are traced changes nothing
else, and a console writes a trace ahead of all that it writes without.
-/

namespace FuzzyCalc

open Stack

/-- Tokens are taken one after the other, and each leaves a line that shows what is left right
behind it. -/
inductive Stack.Trail (p : Precision) :
    Stack → List (Nat × Token) → List String → Stack → Prop
  /-- Without tokens there is no line. -/
  | nil {stack : Stack} : Trail p stack [] [] stack
  /-- A token is taken, and then the others. -/
  | cons {stack next final : Stack} {offset : Nat} {token : Token} {rest : List (Nat × Token)}
    {lines : List String} (taken : push p stack token = .ok next)
    (later : Trail p next rest lines final) :
    Trail p stack ((offset, token) :: rest) (tokenLine offset token next :: lines) final

/-- How far an expression is traced: some tokens at its front are taken and leave the lines, the
next one is not, and each token begins behind the one before. -/
structure Traces (p : Precision) (m : Memory) (text : List Char) (start : Nat)
    (taken : List (Nat × Token)) (lines : List String) (stack : Stack) : Prop where
  /-- Each token that is taken leaves a line. -/
  trail : Trail p [] taken lines stack
  /-- What is taken is what the scanner yields, up to the first token that is refused. -/
  stops : ∃ behind, (Reading.scan m text start).tokens = taken ++ behind ∧
    ∀ entry ∈ behind.head?, ∀ next, push p stack entry.2 ≠ .ok next
  /-- Offsets increase from token to token. -/
  increasing : (taken.map Prod.fst).Pairwise (· < ·)
  /-- No line tells of a variable. -/
  unassigned : ∀ letter x, assignmentLine letter x ∉ lines

section

variable {p : Precision} {m : Memory} {stack reached final : Stack} {text : List Char}
  {tokens : List (Nat × Token)} {lines : List String} {before behind : List Lexeme}
  {start : Nat}

/-! ### Tokens -/

/-- The last line shows what is left in the end. -/
theorem Stack.Trail.lastWord_getLast? (h : Trail p stack tokens lines final) :
    (lines.getLast?.map lastWord).getD (Token.spellAll stack.residue) =
      Token.spellAll final.residue := by
  induction h with
  | nil => simp
  | @cons stack next final offset token rest lines taken later ih =>
    rw [← ih, List.getLast?_cons, Option.map_some, Option.getD_some]
    cases lines.getLast? with
    | none => exact lastWord_tokenLine offset token next
    | some last => simp

/-- From nothing on, the last line shows what is left in the end, and nothing is left if there is no
line. -/
theorem Stack.Trail.lastShown (h : Trail p [] tokens lines final) :
    lastShown lines = Token.spellAll final.residue := h.lastWord_getLast?

/-- Tokens leave no line that tells of a variable. -/
theorem Stack.Trail.assignmentLine_notMem (h : Trail p stack tokens lines final) (letter : Letter)
    (x : Decimal) : assignmentLine letter x ∉ lines := by
  induction h with
  | nil => exact List.not_mem_nil
  | cons taken later ih =>
    intro present
    rcases List.mem_cons.mp present with first | behind
    · exact tokenLine_ne_assignmentLine _ _ _ letter x first.symm
    · exact ih behind

/-- Tokens that are all taken leave the trace of pushing them. -/
theorem Stack.trail_of_pushMany (h : pushMany p stack (tokens.map Prod.snd) = .ok final) :
    Trail p stack tokens ((pushAll p stack tokens).trace.map TraceEntry.line) final := by
  induction tokens generalizing stack with
  | nil =>
    cases h
    exact .nil
  | cons head rest ih =>
    rw [List.map_cons, pushMany_cons] at h
    obtain ⟨next, taken, later⟩ := bind_eq_ok.mp h
    simp only [pushAll, taken, List.map_cons, TraceEntry.line_taken]
    exact .cons taken (ih later)

/-- If the first token is refused, nothing is traced. -/
theorem Stack.trace_eq_nil (h : ∀ entry ∈ tokens.head?, ∀ next, push p stack entry.2 ≠ .ok next) :
    (pushAll p stack tokens).trace = [] := by
  cases tokens with
  | nil => rfl
  | cons head rest =>
    have refused := h head rfl
    rw [pushAll]
    cases hpush : push p stack head.2 with
    | ok next => exact absurd hpush (refused next)
    | error refusal => cases refusal <;> rfl

namespace Reading

/-- Tokens begin at the offset of the reading or behind it. -/
theorem offset_le_of_mem {lexemes : List Lexeme} {n : Nat} {entry : Nat × Token}
    (h : entry ∈ (ofLexemes m n lexemes).tokens) : n ≤ entry.1 := by
  induction lexemes generalizing n with
  | nil => cases h
  | cons x rest ih =>
    cases hx : x.toToken m with
    | error cause => simp [ofLexemes_cons_error hx] at h
    | ok token =>
      rw [ofLexemes_cons_ok hx, List.mem_cons] at h
      rcases h with rfl | later
      · exact Nat.le_refl n
      · have next := ih later
        omega

/-- Offsets increase from token to token. -/
theorem pairwise_offsets {lexemes : List Lexeme} (n : Nat) (h : ∀ x ∈ lexemes, 0 < x.length) :
    ((ofLexemes m n lexemes).tokens.map Prod.fst).Pairwise (· < ·) := by
  induction lexemes generalizing n with
  | nil => exact .nil
  | cons x rest ih =>
    obtain ⟨hx, hrest⟩ := List.forall_mem_cons.mp h
    cases htoken : x.toToken m with
    | error cause => simp [ofLexemes_cons_error htoken]
    | ok token =>
      rw [ofLexemes_cons_ok htoken, List.map_cons, List.pairwise_cons]
      constructor
      · intro offset hoffset
        obtain ⟨entry, hentry, rfl⟩ := List.mem_map.mp hoffset
        have later := offset_le_of_mem hentry
        show n < entry.1
        omega
      · exact ih _ hrest

/-- A reading that goes wrong at once has no token that is taken. -/
theorem FailsAt.refused {reading : Reading} {n : Nat} {cause : Cause}
    (h : reading.FailsAt p stack n cause) :
    ∀ entry ∈ reading.tokens.head?, ∀ next, push p stack entry.2 ≠ .ok next := by
  intro entry hentry next taken
  cases h with
  | scanner => cases hentry
  | stack tokens failure refused =>
    cases hentry
    cases refused.symm.trans taken

end Reading

/-! ### Expressions -/

/-- Lexemes of an expression that are pushed are traced, if the next one is not. -/
theorem traces_of_pushLexemes?
    (cut : Lexeme.split (text.drop start) = before ++ behind)
    (pushed : pushLexemes? p m [] before = some reached)
    (refused : ∀ entry ∈ (Reading.ofLexemes m (start + (before.flatMap Lexeme.text).length)
      behind).tokens.head?, ∀ next, push p reached entry.2 ≠ .ok next) :
    Traces p m text start (Reading.ofLexemes m start before).tokens
      ((evaluateExpression p m text start).trace.map TraceEntry.line) reached := by
  obtain ⟨scanned, taken⟩ := (pushLexemes?_eq_some_iff start).mp pushed
  have trace : (evaluateExpression p m text start).trace =
      (pushAll p [] (Reading.ofLexemes m start before).tokens).trace := by
    rw [evaluateExpression_eq, cut]
    simp only [(Reading.run_append start pushed behind).1, trace_eq_nil refused, List.append_nil]
  have nonempty : ∀ x ∈ before, 0 < x.length := by
    intro x hx
    have part : x ∈ Lexeme.split (text.drop start) := by simp [cut, hx]
    exact Lexeme.length_pos_of_mem part
  have trail := trail_of_pushMany taken
  rw [← trace] at trail
  refine ⟨trail, ⟨_, ?_, refused⟩, Reading.pairwise_offsets start nonempty,
    trail.assignmentLine_notMem⟩
  rw [Reading.scan, cut, Reading.ofLexemes_append _ scanned]

/-- The text before lexemes that are left is scanned to its end. -/
theorem scan_take (cut : Lexeme.split (text.drop start) = before ++ behind)
    (pushed : pushLexemes? p m [] before = some reached) :
    Reading.scan m (text.take (start + (before.flatMap Lexeme.text).length)) start =
      ⟨(Reading.ofLexemes m start before).tokens, none⟩ := by
  have proper := proper_of_subset (cut ▸ List.subset_append_left before behind) pushed
  rw [Reading.scan, Lexeme.drop_take_split cut, Lexeme.split_flatMap_of_proper cut proper,
    ← ((pushLexemes?_eq_some_iff start).mp pushed).1]

/-- An expression is traced as far as its tokens are taken. If it has a value, that is all that is
left. If a complaint points at an offset, the tokens are those of the text up to there, and the
complaint quotes what they leave. -/
theorem evaluateExpression_traces (p : Precision) (m : Memory) (text : List Char) (start : Nat) :
    ∃ taken stack,
      Traces p m text start taken
        ((evaluateExpression p m text start).trace.map TraceEntry.line) stack ∧
      (∀ x, (evaluateExpression p m text start).result = .ok x → stack = [.number x]) ∧
      ∀ complaint n, (evaluateExpression p m text start).result = .error (.complaint complaint) →
        complaint.offset = some n →
        Reading.scan m (text.take n) start = ⟨taken, none⟩ ∧
        complaint.reached = some stack.residue := by
  -- Either all lexemes are pushed, or there is one where something goes wrong.
  have all {final : Stack} (pushed : pushLexemes? p m [] (Lexeme.split (text.drop start)) =
      some final) : Traces p m text start _
        ((evaluateExpression p m text start).trace.map TraceEntry.line) final :=
    traces_of_pushLexemes? (List.append_nil _).symm pushed nofun
  cases hresult : (evaluateExpression p m text start).result with
  | ok x =>
    refine ⟨_, _, all (evaluateExpression_result_eq_ok.mp hresult), ?_, ?_⟩
    · intro y hy
      rw [Except.ok.inj hy]
    · intro complaint n failed
      cases failed
  | error failure =>
    cases failure with
    | breach => exact absurd hresult evaluateExpression_ne_breach
    | complaint complaint =>
      rcases Reading.failsAt_or_result hresult with
        ⟨before, behind, reached, cause, n, cut, rfl, pushed, fails, rfl⟩ |
        ⟨final, cause, pushed, -, rfl⟩
      · refine ⟨_, _, traces_of_pushLexemes? cut pushed fails.refused, nofun, ?_⟩
        intro complaint n failed hn
        cases failed
        cases hn
        exact ⟨scan_take cut pushed, rfl⟩
      · refine ⟨_, _, all pushed, nofun, ?_⟩
        intro complaint n failed hn
        cases failed
        cases hn

/-! ### Lines -/

/-- The lines that trace an evaluated text: none if no letter stands before its colon, or else those
of its expression, and one for the variable if it gets the value. -/
inductive TracesLine (p : Precision) (m : Memory) (text : List Char) : List String → Prop
  /-- What stands before the colon is no letter. -/
  | badName {c : Char} {rest : List Char} (form : text = c :: ':' :: rest)
    (name : Letter.ofChar? c = none)
    (refused : (evaluateLine p m text).result =
      .error (.complaint (.bare (.badName [c]) (some 0)))) : TracesLine p m text []
  /-- Nothing is stored. The last line shows the value, or what a complaint that points at an offset
  quotes; the tokens are then those of the text up to there. -/
  | expression {taken : List (Nat × Token)} {lines : List String} {stack : Stack}
    (traces : Traces p m text (expressionStart text) taken lines stack)
    (unassigned : (evaluateLine p m text).result ≠ .ok .assignment)
    (value : ∀ x, (evaluateLine p m text).result = .ok (.value x) → lastShown lines = x.numeral)
    (complaint : ∀ complaint n, (evaluateLine p m text).result = .error (.complaint complaint) →
      complaint.offset = some n →
      Reading.scan m (text.take n) (expressionStart text) = ⟨taken, none⟩ ∧
      complaint.message = "Expression reduced to \"" ++ String.ofList (lastShown lines) ++
        "...\" " ++ complaint.cause.message ++ ".") : TracesLine p m text lines
  /-- The value of the expression is stored. The last line of the expression shows it, too. -/
  | assignment {letter : Letter} {rest : List Char} {x : Decimal} {taken : List (Nat × Token)}
    {lines : List String} (form : text = letter.toChar :: ':' :: rest)
    (traces : Traces p m text (expressionStart text) taken lines [.number x])
    (value : lastShown lines = x.numeral)
    (assigned : (evaluateLine p m text).result = .ok .assignment)
    (stored : (evaluateLine p m text).memory = m.put letter x) :
    TracesLine p m text (lines ++ [assignmentLine letter x])

/-- The message of a complaint that quotes what its line had come down to. -/
theorem Complaint.message_of_reached {complaint : Complaint} {residue : List Token}
    (h : complaint.reached = some residue) :
    complaint.message = "Expression reduced to \"" ++ String.ofList (Token.spellAll residue) ++
      "...\" " ++ complaint.cause.message ++ "." := by
  rw [message, h]

/-- If a number is all that is left, the last line shows it. -/
theorem Traces.lastShown_eq_numeral {x : Decimal}
    (h : Traces p m text start tokens lines [.number x]) : lastShown lines = x.numeral := by
  rw [h.trail.lastShown]
  simp [residue, Token.spellAll, Token.spelling]

/-- A line that stores nothing is traced as its expression. -/
theorem tracesLine_of_result {result : Except Failure Decimal}
    (expression : (evaluateExpression p m text (expressionStart text)).result = result)
    (trace : (evaluateLine p m text).trace =
      (evaluateExpression p m text (expressionStart text)).trace)
    (ends : (evaluateLine p m text).result = .value <$> result) :
    TracesLine p m text ((evaluateLine p m text).trace.map TraceEntry.line) := by
  obtain ⟨taken, stack, traces, value, complaint⟩ :=
    evaluateExpression_traces p m text (expressionStart text)
  rw [trace]
  apply TracesLine.expression traces
  · intro assigned
    obtain ⟨x, -, hx⟩ := map_eq_ok.mp (ends.symm.trans assigned)
    cases hx
  · intro x hx
    obtain ⟨y, hy, heq⟩ := map_eq_ok.mp (ends.symm.trans hx)
    cases heq
    rw [value x (expression.trans hy)] at traces
    exact traces.lastShown_eq_numeral
  · intro reason n failed hn
    rw [ends] at failed
    cases result with
    | ok x => cases failed
    | error failure =>
      cases failed
      obtain ⟨scanned, quoted⟩ := complaint reason n expression hn
      exact ⟨scanned, by rw [traces.trail.lastShown, Complaint.message_of_reached quoted]⟩

/-- Every line is traced. -/
theorem evaluateLine_traces (p : Precision) (m : Memory) (text : List Char) :
    TracesLine p m text ((evaluateLine p m text).trace.map TraceEntry.line) := by
  rcases line_cases text with ⟨c, rest, rfl, hc⟩ | ⟨c, rest, letter, rfl, hc⟩ | expression
  · have line : evaluateLine p m (c :: ':' :: rest) = _ := evaluateLine_badName hc
    rw [line]
    exact .badName rfl hc (by rw [line])
  · cases hx : (evaluateExpression p m (c :: ':' :: rest) 2).result with
    | ok x =>
      obtain ⟨taken, stack, traces, value, -⟩ :=
        evaluateExpression_traces p m (c :: ':' :: rest) 2
      obtain rfl := value x hx
      have line := evaluateLine_assignment hc hx
      have form : c :: ':' :: rest = letter.toChar :: ':' :: rest := by
        rw [Letter.toChar_of_ofChar? hc]
      rw [line, List.map_append, List.map_singleton, TraceEntry.line_assigned]
      exact .assignment form traces traces.lastShown_eq_numeral (by rw [line]) (by rw [line])
    | error failure =>
      have line := evaluateLine_failure hc hx
      exact tracesLine_of_result hx (by rw [line]; rfl) (by rw [line]; rfl)
  · have start := expressionStart_of_expression expression
    have line := evaluateLine_expression (p := p) (m := m) expression
    exact tracesLine_of_result rfl (by rw [line, start]) (by rw [line, start])

end

/-! ### Consoles -/

namespace Console

/-- A way to show an evaluated line reports a trace: as soon as tracing is asked for it writes the
lines of the trace to the channel of complaints, ahead of all that it writes otherwise; and
otherwise nothing goes to that channel, unless the evaluation fails. -/
structure Reports (e : Evaluation) (lines : List String) (shown : Nat → List Output) : Prop where
  /-- With tracing each line of the trace is written. -/
  traced : ∀ verbosity, verbosity ≠ 0 →
    shown verbosity = (lines.map fun line ↦ .err (line ++ "\n")) ++ shown 0
  /-- Without tracing and without a failure there is nothing to complain of. -/
  quiet : e.result.isOk → Output.complaints (shown 0) = ""

/-- What shows a trace and then how the line has ended reports the trace. -/
theorem reports_showTrace {e : Evaluation} {ending : List Output}
    (h : ∀ yield, e.result = .ok yield → Output.complaints ending = "") :
    Reports e (e.trace.map TraceEntry.line) fun verbosity ↦
      showTrace verbosity e.trace ++ ending := by
  constructor
  · intro verbosity traced
    simp [showTrace, traced, errLine]
  · intro fine
    cases hresult : e.result with
    | error failure =>
      rw [hresult] at fine
      cases fine
    | ok yield => exact h yield hresult

/-- The command line reports traces. -/
theorem reports_showOneShot (text : List Char) (e : Evaluation) :
    Reports e (e.trace.map TraceEntry.line) (showOneShot · text e) := by
  apply reports_showTrace
  intro yield hresult
  rw [hresult]
  cases yield with
  | value x => rfl
  | assignment => rfl

/-- The prompt reports traces. -/
theorem Prompt.reports_showEvaluation (text : List Char) (e : Evaluation) :
    Reports e (e.trace.map TraceEntry.line) (showEvaluation · text e) := by
  apply reports_showTrace
  intro yield hresult
  rw [hresult]
  cases yield with
  | value x => rfl
  | assignment => rfl

end Console

/-! ### Sessions -/

namespace Session

variable {s : Session} {request : Request} {text : List Char}

/-- The same session without traces. -/
def quiet (s : Session) : Session := { s with verbosity := 0 }

/-- Without traces a request is answered in the same way. -/
theorem step_quiet (s : Session) (request : Request) :
    s.quiet.step request = ((s.step request).1.quiet, (s.step request).2.1, []) := by
  cases request with
  | setPrecision digits | set name x | letter n =>
    simp only [step, quiet]
    split <;> rfl
  | _ => rfl

/-- Without traces requests are answered in the same way. -/
theorem run_quiet (s : Session) (requests : List Request) :
    s.quiet.run requests =
      ((s.run requests).1.quiet, (s.run requests).2.map fun answer ↦ (answer.1, [])) := by
  induction requests generalizing s with
  | nil => rfl
  | cons request rest ih => simp only [run, step_quiet, ih, List.map_cons]

/-- No request turns traces on or off. -/
theorem verbosity_step (s : Session) (request : Request) :
    (s.step request).1.verbosity = s.verbosity := by
  cases request with
  | setPrecision digits | set name x | letter n =>
    simp only [step]
    split <;> rfl
  | _ => rfl

/-- Requests do not turn traces on or off. -/
theorem verbosity_run (s : Session) (requests : List Request) :
    (s.run requests).1.verbosity = s.verbosity := by
  induction requests generalizing s with
  | nil => rfl
  | cons request rest ih => exact (ih _).trans (verbosity_step s request)

/-- A session that traces reports all of a trace. -/
theorem report_of_traced (h : s.verbosity ≠ 0) (trace : List TraceEntry) :
    s.report trace = trace := if_neg h

/-- Tracing is harmless and faithful. With and without it a session gives the same answers and has
the same variables and the same precision in the end. At any moment of a session that traces, what
is written for a text has one line for each token that is taken, in the order of increasing offsets
and with what is left right behind the token, and behind these one line for the variable if one got
a value, which is then all that is left. If a complaint points at an offset, the tokens are those of
the expression up to there, and the message quotes what the last line shows; if the text has a
value, the last line shows that. Other requests leave no trace. On the same variables both consoles
write the same lines, ahead of all that they write without traces. -/
theorem run_traced (s : Session) (traced : s.verbosity ≠ 0) (requests : List Request) :
    s.quiet.run requests =
        ((s.run requests).1.quiet, (s.run requests).2.map fun answer ↦ (answer.1, [])) ∧
      let now := (s.run requests).1
      ∀ request : Request,
        (request.line? = none → (now.step request).2.2 = []) ∧
        ∀ text, request.line? = some text →
          let lines := (now.step request).2.2.map TraceEntry.line
          let e := evaluateLine now.precision now.memory text
          TracesLine now.precision now.memory text lines ∧
            Console.Reports e lines (Console.showOneShot · text e) ∧
            Console.Reports e lines (Console.Prompt.showEvaluation · text e) := by
  refine ⟨run_quiet s requests, ?_⟩
  intro now request
  constructor
  · exact trace_step_of_no_line
  · intro text h lines e
    have still : now.verbosity ≠ 0 := by rwa [verbosity_run]
    have reported : (now.step request).2.2 = e.trace :=
      (trace_step_line h).trans (report_of_traced still e.trace)
    have written : lines = e.trace.map TraceEntry.line := by rw [← reported]
    rw [written]
    exact ⟨evaluateLine_traces now.precision now.memory text, Console.reports_showOneShot text e,
      Console.Prompt.reports_showEvaluation text e⟩

/-- Traced or not, `x` gets a quarter. Then `x+)` is refused behind two lines, and its complaint
quotes what the second one shows. -/
theorem run_traced_quarter :
    let s := fresh .standard 1
    let requests : List Request := [.evaluate "x:1/4".toList]
    let now := (s.run requests).1
    let e := evaluateLine now.precision now.memory "x+)".toList
    let lines := ["   0  0.25   -> 0.25", "   1  +      -> 0.25+"]
    let reason := "Expression reduced to \"0.25+...\" \")\" appended after non-numeric token \"+\"."
    s.verbosity ≠ 0 ∧ (s.quiet.run requests).1.memory.value? ⟨49⟩ = some (.finite ⟨false, 25, -2⟩) ∧
      (s.run requests).2.map (fun answer ↦ answer.2.map TraceEntry.line) =
        [["   2  1      -> 1", "   3  /      -> 1/", "   4  4      -> 0.25", "x := 0.25"]] ∧
      (now.step (.evaluate "x+)".toList)).2.2.map TraceEntry.line = lines ∧
      TracesLine now.precision now.memory "x+)".toList lines ∧
      lastShown lines = "0.25+".toList ∧
      Console.showOneShot 1 "x+)".toList e =
        [.err "   0  0.25   -> 0.25\n", .err "   1  +      -> 0.25+\n", .err "x+)\n  ^ \n",
          .err (reason ++ "\n")] := by
  intro s requests now e lines reason
  have traced : s.verbosity ≠ 0 := by decide
  obtain ⟨quiet, answered⟩ := run_traced s traced requests
  have value : now.memory.value? ⟨49⟩ = some (.finite ⟨false, 25, -2⟩) := by decide +kernel
  have first : (s.run requests).2.map (fun answer ↦ answer.2.map TraceEntry.line) =
      [["   2  1      -> 1", "   3  /      -> 1/", "   4  4      -> 0.25", "x := 0.25"]] := by
    decide +kernel
  have written : (now.step (.evaluate "x+)".toList)).2.2.map TraceEntry.line = lines := by
    decide +kernel
  have shown : lastShown lines = "0.25+".toList := by decide +kernel
  have complaint : Console.showOneShot 0 "x+)".toList e =
      [.err "x+)\n  ^ \n", .err (reason ++ "\n")] := by
    decide +kernel
  obtain ⟨line, oneShot, -⟩ := (answered (.evaluate "x+)".toList)).2 _ rfl
  rw [written] at line oneShot
  rw [quiet, oneShot.traced 1 (by decide), complaint]
  exact ⟨traced, value, first, written, line, shown, rfl⟩

end Session

end FuzzyCalc
