import FuzzyCalc.Console.Program

/-!
# Lines typed at the prompt

Lines typed with a line break behind each are read as these lines. What the prompt has written after
some of them, and where it stands then, decides all that follows: the rest is as good as typed at a
prompt that stands there.
-/

namespace FuzzyCalc

namespace Console

/-- What is typed for lines: each with a line break behind. -/
def typed (lines : List (List Char)) : List Char :=
  lines.flatMap (· ++ ['\n'])

/-- A line without a line break in it is read up to its end. -/
theorem splitLines_line {line : List Char} (h : '\n' ∉ line) (rest : List Char) :
    splitLines (line ++ '\n' :: rest) = line :: splitLines rest := by
  induction line with
  | nil => simp [splitLines]
  | cons c line ih =>
    have hc : c ≠ '\n' := by
      intro hc
      apply h
      simp [hc]
    have hline : '\n' ∉ line := by
      intro hline
      apply h
      simp [hline]
    rw [List.cons_append, splitLines, if_neg hc, ih hline]

/-- The lines that were typed are the ones that are read. -/
theorem splitLines_typed {lines : List (List Char)} (h : ∀ line ∈ lines, '\n' ∉ line) :
    splitLines (typed lines) = lines := by
  induction lines with
  | nil => rfl
  | cons line rest ih =>
    have whole : typed (line :: rest) = line ++ '\n' :: typed rest := by
      simp [typed]
    rw [whole, splitLines_line (h line (by simp)), ih fun other hother ↦ h other (by simp [hother])]

/-- Where the arguments start the prompt, the program goes well, whatever is typed. -/
theorem run_interact {arguments : List (List Char)} {prompt : Prompt}
    (h : plan arguments = .interact prompt) (lines : List (List Char)) :
    run arguments lines = (0, outLine greeting :: prompt.feedAll lines) := by
  rw [run, h]

namespace Prompt

variable {prompt state : Prompt} {line text before : List Char} {lines : List (List Char)}

/-- Take lines up to a command to leave: where the prompt stands afterwards, unless it was left, and
what has been written. -/
def feedLines (prompt : Prompt) : List (List Char) → Option Prompt × List Output
  | [] => (some prompt, [])
  | line :: rest =>
    match prompt.feed line with
    | (none, outputs) => (none, prompt.invitation ++ outputs)
    | (some next, outputs) =>
      let (final, later) := next.feedLines rest
      (final, prompt.invitation ++ outputs ++ later)

/-- Without lines nothing happens. -/
@[simp] theorem feedLines_nil (prompt : Prompt) : prompt.feedLines [] = (some prompt, []) := rfl

/-- A line that the prompt is not left with comes before the others. -/
theorem feedLines_cons {next : Prompt} {outputs : List Output}
    (h : prompt.feed line = (some next, outputs)) (rest : List (List Char)) :
    prompt.feedLines (line :: rest) =
      ((next.feedLines rest).1, prompt.invitation ++ outputs ++ (next.feedLines rest).2) := by
  simp [feedLines, h]

/-- What follows lines is taken by the prompt as it stands behind them. -/
theorem feedLines_append (reached : (prompt.feedLines lines).1 = some state)
    (rest : List (List Char)) :
    prompt.feedLines (lines ++ rest) =
      ((state.feedLines rest).1, (prompt.feedLines lines).2 ++ (state.feedLines rest).2) := by
  induction lines generalizing prompt with
  | nil =>
    cases reached
    simp
  | cons line lines ih =>
    cases hfeed : prompt.feed line with
    | mk next outputs =>
      cases next with
      | none => simp [feedLines, hfeed] at reached
      | some next =>
        rw [feedLines_cons hfeed] at reached ⊢
        rw [List.cons_append, feedLines_cons hfeed, ih reached]
        simp

/-- All that is written for an input is what is written for its lines and, unless the prompt was
left, one more invitation and the farewell. -/
theorem feedAll_eq_feedLines (prompt : Prompt) (lines : List (List Char)) :
    prompt.feedAll lines =
      (prompt.feedLines lines).2 ++
        (prompt.feedLines lines).1.elim [] fun last ↦ last.invitation ++ farewell := by
  induction lines generalizing prompt with
  | nil => simp [feedAll]
  | cons line lines ih =>
    cases hfeed : prompt.feed line with
    | mk next outputs =>
      cases next with
      | none => simp [feedAll, feedLines, hfeed]
      | some next => simp [feedAll, feedLines_cons hfeed, hfeed, ih]

/-- What is written behind lines is written by the prompt as it stands there. -/
theorem feedAll_append (reached : (prompt.feedLines lines).1 = some state)
    (rest : List (List Char)) :
    prompt.feedAll (lines ++ rest) = (prompt.feedLines lines).2 ++ state.feedAll rest := by
  simp only [feedAll_eq_feedLines, feedLines_append reached, List.append_assoc]

/-- A text that goes on is kept without its backslash. -/
theorem advance_open (prompt : Prompt) (text : List Char) :
    prompt.advance (text ++ ['\\']) = ({ prompt with pending := some text }, []) := by
  simp [advance]

/-- A text that does not go on is evaluated. -/
theorem advance_closed (h : text.getLast? ≠ some '\\') :
    prompt.advance text =
      ({ prompt with
          memory := (evaluateLine prompt.precision prompt.memory text).memory
          pending := none },
        showEvaluation prompt.verbosity text
          (evaluateLine prompt.precision prompt.memory text)) := by
  simp [advance, h]

/-- Where a text goes on from does not matter to it. -/
theorem advance_pending (prompt : Prompt) (pending : Option (List Char)) (text : List Char) :
    { prompt with pending }.advance text = prompt.advance text := by
  by_cases h : text.getLast? = some '\\' <;> simp [advance, h]

/-- A line behind one that goes on is taken as it is. -/
theorem feed_pending (h : prompt.pending = some before) (line : List Char) :
    prompt.feed line =
      (some (prompt.advance (before ++ line)).1, (prompt.advance (before ++ line)).2) := by
  simp [feed, h]

/-- A line that is no command and has no blanks around it is taken as it is. -/
theorem feed_idle (idle : prompt.pending = none) (trimmed : Text.trim line = line)
    (h : Command.ofLine? line = none) :
    prompt.feed line = (some (prompt.advance line).1, (prompt.advance line).2) := by
  simp [feed, idle, trimmed, h]

end Prompt

end Console

end FuzzyCalc
