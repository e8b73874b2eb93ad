import FuzzyCalc.Proofs.Evaluation
import FuzzyCalc.Proofs.Options
import FuzzyCalc.Proofs.Typing

/-!
# The command line and the prompt agree

Lines can be given with the arguments or typed at the prompt. Either way they go through the same
evaluations, one after another on the same variables, and each is shown alike: with the time behind
a value and with the prompt in front of a picture, but otherwise the same.
-/

namespace FuzzyCalc.Console

/-- A line that the prompt evaluates just as it stands. -/
structure IsExpressionLine (line : List Char) : Prop where
  /-- The line is read as one. -/
  unbroken : '\n' ∉ line
  /-- No blanks stand around the line. -/
  trimmed : Text.trim line = line
  /-- The line is no command; so it is not empty. -/
  expression : Command.ofLine? line = none
  /-- The line does not go on. -/
  closed : line.getLast? ≠ some '\\'

/-- Lines with their evaluations, one after another on the same variables. -/
def evaluations (p : Precision) (m : Memory) : List (List Char) → List (List Char × Evaluation)
  | [] => []
  | line :: rest =>
    (line, evaluateLine p m line) :: evaluations p (evaluateLine p m line).memory rest

/-- Two ways to show how a line has ended, behind the same trace. The first is that of the command
line. The second, that of the prompt, has the time behind a value, and in a picture the prompt in
front of the line and as many blanks in front of the caret. -/
inductive ShownAlike (line : List Char) (traced : List Output) :
    Except Failure Yield → List Output → List Output → Prop
  /-- The same numeral is shown. -/
  | value (x : Decimal) :
    ShownAlike line traced (.ok (.value x))
      (traced ++ [.out (String.ofList x.numeral ++ "\n")])
      (traced ++ [.out (String.ofList x.numeral ++ "\t[0 ms]" ++ "\n")])
  /-- Nothing is shown. -/
  | assignment : ShownAlike line traced (.ok .assignment) traced traced
  /-- The same message is shown. -/
  | message {complaint : Complaint} (placeless : complaint.offset = none) :
    ShownAlike line traced (.error (.complaint complaint))
      (traced ++ [.err (complaint.message ++ "\n")])
      (traced ++ [.err (complaint.message ++ "\n")])
  /-- The same message is shown below a picture of two lines. -/
  | picture {complaint : Complaint} {offset : Nat} (placed : complaint.offset = some offset)
    {above below : List Char} (picture : picture [] line offset = above ++ '\n' :: below)
    (one : '\n' ∉ above) (other : '\n' ∉ below) :
    ShownAlike line traced (.error (.complaint complaint))
      (traced ++ [.err (String.ofList (above ++ '\n' :: below) ++ "\n"),
        .err (complaint.message ++ "\n")])
      (traced ++ [
        .err (String.ofList ("(`) ".toList ++ above ++ '\n' :: ("    ".toList ++ below)) ++ "\n"),
        .err (complaint.message ++ "\n")])

variable {p : Precision} {m : Memory} {verbosity : Nat} {line : List Char}
  {lines : List (List Char)} {e : Evaluation}

/-- Taking the blanks off the end adds nothing. -/
theorem mem_of_mem_trimEnd {c : Char} (h : c ∈ Text.trimEnd line) : c ∈ line := by
  rw [Text.trimEnd, List.mem_reverse] at h
  exact List.mem_reverse.mp ((List.dropWhile_sublist _).mem h)

/-- A picture of a line has two lines, and a prompt in front moves both by its width. -/
theorem picture_promptText (h : '\n' ∉ line) (offset : Int) :
    ∃ above below, '\n' ∉ above ∧ '\n' ∉ below ∧
      picture [] line offset = above ++ '\n' :: below ∧
      picture promptText line offset =
        "(`) ".toList ++ above ++ '\n' :: ("    ".toList ++ below) := by
  refine ⟨Text.trimEnd line,
    (upTo offset line).map (fun c ↦ if c == '\t' then '\t' else ' ') ++ ['^', ' '], ?_, ?_, ?_, ?_⟩
  · intro newline
    exact h (mem_of_mem_trimEnd newline)
  · have kept (c : Char) : (if c = '\t' then '\t' else ' ') ≠ '\n' := by
      by_cases hc : c = '\t'
      · simp [hc]
      · simp [hc]
    simp [kept]
  · simp [picture]
  · simp [picture, promptText]

/-- An evaluation that fails with a complaint, if it fails, is shown alike in both ways. -/
theorem shownAlike (h : '\n' ∉ line) (noBreach : e.result ≠ .error .breach) :
    ShownAlike line (showTrace verbosity e.trace) e.result (showOneShot verbosity line e)
      (Prompt.showEvaluation verbosity line e) := by
  cases hresult : e.result with
  | ok yield =>
    cases yield with
    | value x =>
      simp only [showOneShot, Prompt.showEvaluation, hresult]
      exact .value x
    | assignment =>
      simp only [showOneShot, Prompt.showEvaluation, hresult, List.append_nil]
      exact .assignment
  | error failure =>
    cases failure with
    | breach => contradiction
    | complaint complaint =>
      simp only [showOneShot, Prompt.showEvaluation, hresult, showFailure, showComplaint]
      cases hoffset : complaint.offset with
      | none => exact .message hoffset
      | some offset =>
        obtain ⟨above, below, one, other, plain, prompted⟩ := picture_promptText h offset
        simp only [plain, prompted]
        exact .picture hoffset plain one other

/-- Each of the evaluations is one of a line, on some variables. -/
theorem exists_of_mem_evaluations {entry : List Char × Evaluation}
    (h : entry ∈ evaluations p m lines) :
    entry.1 ∈ lines ∧ ∃ n, entry.2 = evaluateLine p n entry.1 := by
  induction lines generalizing m with
  | nil => simp [evaluations] at h
  | cons line rest ih =>
    simp only [evaluations, List.mem_cons] at h
    cases h with
    | inl first =>
      subst first
      exact ⟨by simp, m, rfl⟩
    | inr later =>
      have := ih later
      simp [this]

/-- Lines given with the arguments are evaluated one after another. -/
theorem evaluateLines_evaluations (p : Precision) (verbosity : Nat) (m : Memory)
    (lines : List (List Char)) :
    evaluateLines p verbosity m lines =
      ((evaluations p m lines).flatMap fun entry ↦ showOneShot verbosity entry.1 entry.2,
        (evaluations p m lines).any fun entry ↦ !entry.2.result.isOk) := by
  induction lines generalizing m with
  | nil => rfl
  | cons line rest ih => simp [evaluateLines, evaluations, ih]

/-- Lines typed at the prompt are evaluated one after another. -/
theorem feedAll_evaluations {prompt : Prompt} (idle : prompt.pending = none)
    (h : ∀ line ∈ lines, IsExpressionLine line) :
    prompt.feedAll lines =
      ((evaluations prompt.precision prompt.memory lines).flatMap fun entry ↦
        .out (String.ofList promptText) ::
          Prompt.showEvaluation prompt.verbosity entry.1 entry.2) ++
        [.out (String.ofList promptText), outLine ""] := by
  induction lines generalizing prompt with
  | nil => simp [Prompt.feedAll, Prompt.invitation, idle, evaluations, Prompt.farewell]
  | cons line rest ih =>
    have first := h line (by simp)
    have later : ∀ line ∈ rest, IsExpressionLine line := by
      intro line hline
      exact h line (by simp [hline])
    rw [Prompt.feedAll, Prompt.feed_idle idle first.trimmed first.expression,
      Prompt.advance_closed first.closed]
    simp [evaluations, Prompt.invitation, idle, ih _ later]

/-- The command line and the prompt agree. Take any precision, any tracing, and lines that are
expression lines: given with the arguments or typed at the prompt, they go through the same
evaluations, and each is shown alike, with the prompt before it where it is typed. The status tells
whether a line has failed if they are given with the arguments, and is always 0 at the prompt, which
ends with an invitation and an empty line. This is what the program does behind all options that
start the prompt; there are such options for every precision that can be asked for. -/
theorem run_modes (p : Precision) (verbosity : Nat) (filled : lines ≠ [])
    (expressions : ∀ line ∈ lines, IsExpressionLine line) :
    let each := evaluations p Memory.empty lines
    let shown := each.flatMap fun entry ↦ showOneShot verbosity entry.1 entry.2
    let failed := each.any fun entry ↦ !entry.2.result.isOk
    let answered :=
      (each.flatMap fun entry ↦
        .out "(`) " :: Prompt.showEvaluation verbosity entry.1 entry.2) ++
      [.out "(`) ", .out "\n"]
    (∀ entry ∈ each,
      ShownAlike entry.1 (showTrace verbosity entry.2.trace) entry.2.result
        (showOneShot verbosity entry.1 entry.2)
        (Prompt.showEvaluation verbosity entry.1 entry.2)) ∧
    evaluateLines p verbosity Memory.empty lines = (shown, failed) ∧
    (Prompt.start p verbosity).feedAll (splitLines (typed lines)) = answered ∧
    (p.digits ≤ Precision.maxDigits →
      plan (optionsFor p verbosity) = .interact (.start p verbosity)) ∧
    ∀ options, plan options = .interact (.start p verbosity) →
      (∀ input, run (options ++ lines.map (longArgument .evaluate)) input =
        (if failed then 1 else 0, shown)) ∧
      run options (splitLines (typed lines)) = (0, outLine greeting :: answered) := by
  intro each shown failed answered
  have inOneGo : evaluateLines p verbosity Memory.empty lines = (shown, failed) :=
    evaluateLines_evaluations p verbosity Memory.empty lines
  have read : splitLines (typed lines) = lines := by
    apply splitLines_typed
    intro line hline
    exact (expressions line hline).unbroken
  have atPrompt : (Prompt.start p verbosity).feedAll (splitLines (typed lines)) = answered := by
    rw [read]
    exact feedAll_evaluations rfl expressions
  refine ⟨?_, inOneGo, atPrompt, fun h ↦ plan_optionsFor h verbosity, ?_⟩
  · intro entry hentry
    obtain ⟨hline, n, hn⟩ := exists_of_mem_evaluations hentry
    apply shownAlike (expressions entry.1 hline).unbroken
    rw [hn]
    exact evaluateLine_ne_breach p n entry.1
  · intro options start
    constructor
    · intro input
      rw [run, plan_evaluate start filled, inOneGo]
    · rw [run_interact start, atPrompt]

/-- With 0.8 for `x`, a disjunction and then two complaints, one with a picture. -/
theorem run_modes_disjunction :
    let lines := ["x:0.8".toList, "~x$x".toList, "1/0".toList, "1+".toList]
    (∀ line ∈ lines, IsExpressionLine line) ∧
    run ([] ++ lines.map (longArgument .evaluate)) [] =
      (1, [.out "0.84\n", .err "1/0\n  ^ \n",
        .err "Expression reduced to \"1/...\" Attempted to divide by non-positive number 0.\n",
        .err "Expression reduced to \"1+\"\n"]) ∧
    (run [] (splitLines (typed lines))).1 = 0 := by
  intro lines
  have expressions : ∀ line ∈ lines, IsExpressionLine line := by
    intro line hline
    have conditions : ∀ line ∈ lines, '\n' ∉ line ∧ Text.trim line = line ∧
        Command.ofLine? line = none ∧ line.getLast? ≠ some '\\' := by
      decide
    obtain ⟨unbroken, trimmed, expression, closed⟩ := conditions line hline
    exact ⟨unbroken, trimmed, expression, closed⟩
  obtain ⟨-, -, -, -, modes⟩ := run_modes .standard 0 (by decide : lines ≠ []) expressions
  obtain ⟨given, atPrompt⟩ := modes [] rfl
  refine ⟨expressions, ?_, ?_⟩
  · rw [given []]
    decide +kernel
  · rw [atPrompt]

end FuzzyCalc.Console
