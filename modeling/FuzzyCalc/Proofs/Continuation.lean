import FuzzyCalc.Proofs.Typing

/-!
# Breaking a line with backslashes

A line may be typed in pieces, each but the last with a backslash behind it. The prompt takes all
but the last without a word and keeps what has been typed; with the last it does what it does with
the whole line. An input that ends before is as good as one without the line.
-/

namespace FuzzyCalc

namespace Text

variable {first rest : List Char}

/-- Taking the blanks off adds nothing. -/
theorem length_trim_le (text : List Char) : (trim text).length ≤ text.length := by
  have front := (List.dropWhile_suffix (l := text) isBlank).length_le
  have back := (List.dropWhile_suffix (l := (text.dropWhile isBlank).reverse) isBlank).length_le
  simp only [List.length_reverse] at back
  simp only [trim, trimEnd, List.length_reverse]
  omega

/-- A text without blanks around it may be broken anywhere: with a backslash behind, the first piece
has none around it either. -/
theorem trim_backslash (h : trim (first ++ rest) = first ++ rest) :
    trim (first ++ ['\\']) = first ++ ['\\'] := by
  have backslash : isBlank '\\' = false := by decide
  cases first with
  | nil => simp [trim, trimEnd, backslash]
  | cons c first =>
    cases hc : isBlank c with
    | false => simp [trim, trimEnd, hc, backslash]
    | true =>
      have dropped : trim (c :: (first ++ rest)) = trim (first ++ rest) := by
        simp [trim, hc]
      have shorter := length_trim_le (first ++ rest)
      rw [← dropped, ← List.cons_append, h] at shorter
      simp only [List.cons_append, List.length_cons] at shorter
      omega

end Text

namespace Console

/-- No command ends in a backslash. -/
theorem Command.ofLine?_backslash (text : List Char) :
    Command.ofLine? (text ++ ['\\']) = none := by
  have last : ((text ++ ['\\']).map Char.toLower).getLast? = some '\\' := by
    simp
  unfold ofLine?
  generalize (text ++ ['\\']).map Char.toLower = word at last
  have other (command : List Char) (h : command.getLast? ≠ some '\\') : word ≠ command := by
    rintro rfl
    exact h last
  have filled : word ≠ [] := other [] (by decide)
  have mark : word ≠ ['?'] := other ['?'] (by decide)
  simp [other, filled, mark]

/-- A piece of a line that goes on. -/
def goingOn (piece : List Char) : List Char := piece ++ ['\\']

namespace Prompt

variable {prompt : Prompt} {line last before : List Char} {pieces : List (List Char)}

/-- The first piece of a line is kept, however short it is. -/
theorem feed_goingOn {piece rest : List Char} (idle : prompt.pending = none)
    (trimmed : Text.trim (piece ++ rest) = piece ++ rest) :
    prompt.feed (goingOn piece) = (some { prompt with pending := some piece }, []) := by
  rw [goingOn, feed_idle idle (Text.trim_backslash trimmed) (Command.ofLine?_backslash piece),
    advance_open]

/-- Further pieces are added without a word. -/
theorem feedLines_pending (pending : prompt.pending = some before) (pieces : List (List Char)) :
    prompt.feedLines (pieces.map goingOn) =
      (some { prompt with pending := some (before ++ pieces.flatten) }, []) := by
  induction pieces generalizing prompt before with
  | nil => simp [← pending]
  | cons piece rest ih =>
    have taken : prompt.feed (goingOn piece) =
        (some { prompt with pending := some (before ++ piece) }, []) := by
      rw [feed_pending pending, goingOn, ← List.append_assoc, advance_open]
    rw [List.map_cons, feedLines_cons taken, ih rfl]
    simp [invitation, pending]

/-- All pieces of a line but the last are kept together, after one invitation. -/
theorem feedLines_goingOn (idle : prompt.pending = none)
    (trimmed : Text.trim (pieces.flatten ++ last) = pieces.flatten ++ last) (h : pieces ≠ []) :
    prompt.feedLines (pieces.map goingOn) =
      (some { prompt with pending := some pieces.flatten }, prompt.invitation) := by
  cases pieces with
  | nil => contradiction
  | cons piece rest =>
    rw [List.flatten_cons, List.append_assoc] at trimmed
    rw [List.map_cons, feedLines_cons (feed_goingOn idle trimmed), feedLines_pending rfl]
    simp

/-- With the last piece the prompt does what it does with the whole line. -/
theorem feedLines_broken (idle : prompt.pending = none) (trimmed : Text.trim line = line)
    (several : pieces ≠ []) (cut : pieces.flatten ++ last = line) :
    prompt.feedLines (pieces.map goingOn ++ [last]) =
      (some (prompt.advance line).1, prompt.invitation ++ (prompt.advance line).2) := by
  subst cut
  have kept := feedLines_goingOn idle trimmed several
  rw [feedLines_append (congrArg Prod.fst kept), kept, feedLines_cons (feed_pending rfl last),
    advance_pending]
  simp [invitation]

/-- What follows a line does not depend on how it has been broken. -/
theorem feedAll_broken (idle : prompt.pending = none) (trimmed : Text.trim line = line)
    (expression : Command.ofLine? line = none) (several : pieces ≠ [])
    (cut : pieces.flatten ++ last = line) (rest : List (List Char)) :
    prompt.feedAll (pieces.map goingOn ++ last :: rest) = prompt.feedAll (line :: rest) := by
  have broken := feedLines_broken idle trimmed several cut
  have whole := feedAll_append (congrArg Prod.fst broken) rest
  rw [List.append_assoc, List.singleton_append, broken] at whole
  rw [whole, feedAll, feed_idle idle trimmed expression]
  simp

/-- An input that ends inside a line ends as if the line had not been begun. -/
theorem feedAll_interrupted (idle : prompt.pending = none)
    (trimmed : Text.trim (pieces.flatten ++ last) = pieces.flatten ++ last) :
    prompt.feedAll (pieces.map goingOn) = prompt.feedAll [] := by
  by_cases h : pieces = []
  · simp [h]
  · have kept := feedLines_goingOn idle trimmed h
    have written := feedAll_append (congrArg Prod.fst kept) []
    rw [List.append_nil, kept] at written
    rw [written]
    simp [feedAll, invitation]

/-- Inside a line no variable changes. -/
theorem memory_goingOn (idle : prompt.pending = none)
    (trimmed : Text.trim (pieces.flatten ++ last) = pieces.flatten ++ last) :
    ∃ next, (prompt.feedLines (pieces.map goingOn)).1 = some next ∧
      next.memory = prompt.memory := by
  by_cases h : pieces = []
  · exact ⟨prompt, by simp [h], rfl⟩
  · exact ⟨_, congrArg Prod.fst (feedLines_goingOn idle trimmed h), rfl⟩

end Prompt

/-- No line break comes in by breaking a line. -/
theorem newline_not_mem_goingOn {pieces : List (List Char)} (h : '\n' ∉ pieces.flatten) :
    ∀ text ∈ pieces.map goingOn, '\n' ∉ text := by
  intro text htext newline
  obtain ⟨piece, hpiece, rfl⟩ := List.mem_map.mp htext
  apply h
  apply List.mem_flatten_of_mem hpiece
  simpa [goingOn] using newline

/-- Breaking a line with backslashes changes nothing. Wherever a line that is no command and has no
blanks around it is cut into two or more pieces, the program writes the same and leaves with the
same status if the pieces are typed in its place, each but the last with a backslash behind. With
the last piece the whole line is evaluated, unless it goes on itself. If the input ends before the
last piece, then it is as if it had ended before the line: the pieces are not evaluated, no variable
changes, and the status is 0. -/
theorem run_broken {arguments before after pieces : List (List Char)} {line last : List Char}
    {prompt state : Prompt} (start : plan arguments = .interact prompt)
    (unbroken : ∀ text ∈ before ++ line :: after, '\n' ∉ text)
    (reached : (prompt.feedLines before).1 = some state) (idle : state.pending = none)
    (trimmed : Text.trim line = line) (expression : Command.ofLine? line = none)
    (several : pieces ≠ []) (cut : pieces.flatten ++ last = line) :
    run arguments (splitLines (typed (before ++ pieces.map goingOn ++ last :: after))) =
      run arguments (splitLines (typed (before ++ line :: after))) ∧
    (line.getLast? ≠ some '\\' →
      let e := evaluateLine state.precision state.memory line
      prompt.feedLines (before ++ pieces.map goingOn ++ [last]) =
        (some { state with memory := e.memory },
          (prompt.feedLines before).2 ++
            .out "(`) " :: Prompt.showEvaluation state.verbosity line e)) ∧
    ∀ k,
      let begun := before ++ (pieces.take k).map goingOn
      run arguments (splitLines (typed begun)) = run arguments (splitLines (typed before)) ∧
      (run arguments (splitLines (typed begun))).1 = 0 ∧
      ∃ final, (prompt.feedLines begun).1 = some final ∧ final.memory = state.memory := by
  have split := splitLines_typed unbroken
  simp only [List.forall_mem_append, List.forall_mem_cons] at unbroken
  obtain ⟨free_before, free_line, free_after⟩ := unbroken
  rw [← cut, List.mem_append, not_or] at free_line
  obtain ⟨free_pieces, free_last⟩ := free_line
  have split_before := splitLines_typed free_before
  refine ⟨?_, ?_, ?_⟩
  · have split_broken : splitLines (typed (before ++ pieces.map goingOn ++ last :: after)) =
        before ++ pieces.map goingOn ++ last :: after := by
      apply splitLines_typed
      simp only [List.forall_mem_append, List.forall_mem_cons]
      exact ⟨⟨free_before, newline_not_mem_goingOn free_pieces⟩, free_last, free_after⟩
    rw [split, split_broken, run_interact start, run_interact start, List.append_assoc,
      Prompt.feedAll_append reached, Prompt.feedAll_append reached,
      Prompt.feedAll_broken idle trimmed expression several cut]
  · intro closed e
    have taken := Prompt.feedLines_broken idle trimmed several cut
    rw [List.append_assoc, Prompt.feedLines_append reached, taken, Prompt.advance_closed closed]
    simp [Prompt.invitation, idle, promptText, e]
  · intro k begun
    -- the pieces that never came, with the last one, are what the line still lacks
    have lacking : (pieces.take k).flatten ++ ((pieces.drop k).flatten ++ last) = line := by
      rw [← List.append_assoc, ← List.flatten_append, List.take_append_drop, cut]
    have trimmed_begun := trimmed
    rw [← lacking] at trimmed_begun
    have split_begun : splitLines (typed begun) = begun := by
      apply splitLines_typed
      show ∀ text ∈ before ++ (pieces.take k).map goingOn, '\n' ∉ text
      have free_taken : '\n' ∉ (pieces.take k).flatten := by
        intro newline
        apply free_pieces
        rw [← List.take_append_drop k pieces, List.flatten_append]
        exact List.mem_append_left _ newline
      rw [List.forall_mem_append]
      exact ⟨free_before, newline_not_mem_goingOn free_taken⟩
    have ends : prompt.feedAll begun = prompt.feedAll before := by
      have written := Prompt.feedAll_append reached []
      rw [List.append_nil] at written
      rw [Prompt.feedAll_append reached, Prompt.feedAll_interrupted idle trimmed_begun, written]
    refine ⟨?_, ?_, ?_⟩
    · rw [split_begun, split_before, run_interact start, run_interact start, ends]
    · rw [run_interact start]
    · rw [Prompt.feedLines_append reached]
      exact Prompt.memory_goingOn idle trimmed_begun

/-- With 2 for `x`, the line `x+1` is broken behind `x`, with an empty piece between. -/
theorem run_broken_successor :
    let before := ["x:2".toList]
    let pieces := ["x".toList, []]
    let last := "+1".toList
    let after := ["vars".toList]
    let prompt := Prompt.start .standard 0
    plan [] = .interact prompt ∧
    pieces.map goingOn = ["x\\".toList, "\\".toList] ∧
    run [] (splitLines (typed (before ++ pieces.map goingOn ++ last :: after))) =
      run [] (splitLines (typed (before ++ "x+1".toList :: after))) ∧
    (prompt.feedLines (before ++ pieces.map goingOn ++ [last])).2 =
      [.out "(`) ", .out "(`) ", .out "3\t[0 ms]\n"] ∧
    run [] (splitLines (typed (before ++ ["x\\".toList]))) =
      run [] (splitLines (typed before)) := by
  intro before pieces last after prompt
  have start : plan [] = .interact prompt := rfl
  have reached : (prompt.feedLines before).1 =
      some { prompt with memory := (evaluateLine .standard Memory.empty "x:2".toList).memory } :=
    rfl
  have unbroken : ∀ text ∈ before ++ "x+1".toList :: after, '\n' ∉ text := by decide
  have trimmed : Text.trim "x+1".toList = "x+1".toList := by decide
  have expression : Command.ofLine? "x+1".toList = none := by decide
  have several : pieces ≠ [] := by decide
  have cut : pieces.flatten ++ last = "x+1".toList := by decide
  obtain ⟨same, evaluated, interrupted⟩ :=
    run_broken start unbroken reached rfl trimmed expression several cut
  refine ⟨start, by decide, same, ?_, (interrupted 1).1⟩
  rw [evaluated (by decide)]
  decide +kernel

end Console

end FuzzyCalc
