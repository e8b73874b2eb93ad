import FuzzyCalc.Console.Program
import FuzzyCalc.Decimal.Digits.Lemmas
import FuzzyCalc.Proofs.Numerals
import FuzzyCalc.Proofs.Success

/-!
# Lines behind options

Arguments that are understood, with nothing left over, may be followed by more of them: these are
read as if they stood alone, with the settings so far. So lines to evaluate can be put behind any
options that start the prompt, and are evaluated instead, with the same precision and the same
tracing.
-/

namespace FuzzyCalc.Console

/-- Whether an action does something that arguments may ask for: nothing is left over and nothing is
wrong. -/
def Action.IsTaken : Action → Prop
  | .leave _ | .fail _ => False
  | .flag _ | .value _ _ => True

/-- An option in its long form with a value, such as `--evaluate=1+2`. -/
def longArgument (flag : Flag) (value : List Char) : List Char :=
  '-' :: '-' :: (flag.long ++ '=' :: value)

section

variable {s final : Settings} {first : List Action} {arguments : List Argument}
  {waiting : Option (List Flag × Flag)}

/-- Taking an option with its value leaves nothing over. -/
theorem leftOver_takeValue {flag : Flag} {text : List Char} {next : Settings}
    (h : s.takeValue flag text = .ok next) : next.leftOver = s.leftOver := by
  unfold Settings.takeValue at h
  split at h
  · split at h
    · cases h
      rfl
    · cases h
  · cases h
    rfl

/-- What an action does, if all goes well from there on: it leads to other settings whatever comes
later, and if nothing is left over then, nothing was before and the action is taken. -/
theorem exists_next_of_carryOut {action : Action} {rest : List Action}
    (h : carryOut s (action :: rest) = .ok (.run final)) :
    ∃ next, (∀ later, carryOut s (action :: later) = carryOut next later) ∧
      (next.leftOver = [] → s.leftOver = [] ∧ action.IsTaken) := by
  cases action with
  | flag flag =>
    by_cases hflag : flag = .help
    · simp [carryOut, hflag] at h
    · refine ⟨{ s with verbosity := s.verbosity + 1 }, ?_, ?_⟩
      · simp [carryOut, hflag]
      · intro complete
        exact ⟨complete, trivial⟩
  | value flag text =>
    cases hnext : s.takeValue flag text with
    | error error => simp [carryOut, hnext] at h
    | ok next =>
      refine ⟨next, ?_, ?_⟩
      · simp [carryOut, hnext]
      · intro complete
        rw [leftOver_takeValue hnext] at complete
        exact ⟨complete, trivial⟩
  | leave text =>
    refine ⟨s.leave text, fun later ↦ rfl, ?_⟩
    intro complete
    simp [Settings.leave] at complete
  | fail error => cases h

/-- Actions that leave nothing over are all taken. -/
theorem isTaken_of_carryOut (h : carryOut s first = .ok (.run final))
    (complete : final.leftOver = []) : s.leftOver = [] ∧ ∀ action ∈ first, action.IsTaken := by
  induction first generalizing s with
  | nil =>
    cases h
    simp [complete]
  | cons action rest ih =>
    obtain ⟨next, goesOn, taken⟩ := exists_next_of_carryOut h
    rw [goesOn] at h
    have later := ih h
    have now := taken later.1
    simp only [List.forall_mem_cons]
    exact ⟨now.1, now.2, later.2⟩

/-- Further actions are carried out on the settings so far. -/
theorem carryOut_append (h : carryOut s first = .ok (.run final)) (second : List Action) :
    carryOut s (first ++ second) = carryOut final second := by
  induction first generalizing s with
  | nil =>
    cases h
    rfl
  | cons action rest ih =>
    obtain ⟨next, goesOn, -⟩ := exists_next_of_carryOut h
    rw [goesOn] at h
    rw [List.cons_append, goesOn, ih h]

/-- Arguments whose actions are all taken are complete: more arguments are read afresh. -/
theorem actions_append (h : ∀ action ∈ actions waiting arguments, action.IsTaken)
    (more : List Argument) :
    actions waiting (arguments ++ more) = actions waiting arguments ++ actions none more := by
  -- an option that still waits for its value at the end would have failed
  fun_induction actions waiting arguments <;> simp_all [actions, Action.IsTaken]

/-- Arguments whose actions are all taken have no separator among them. -/
theorem separator_not_mem (h : ∀ action ∈ actions waiting arguments, action.IsTaken) :
    .separator ∉ arguments := by
  fun_induction actions waiting arguments <;> simp_all [Action.IsTaken]

end

section

variable {s : Settings} {texts options lines : List (List Char)} {arguments : List Argument}

/-- The form of an argument that is no separator comes before the forms of the others. -/
theorem ofTexts_cons {text : List Char} {argument : Argument}
    (h : Argument.ofText text = .ok argument) (other : argument ≠ .separator)
    (rest : List (List Char)) :
    Argument.ofTexts (text :: rest) = (argument :: ·) <$> Argument.ofTexts rest := by
  rw [Argument.ofTexts, h]
  cases argument with
  | separator => contradiction
  | plain | long | short | unknown => rfl

/-- Arguments without a separator leave the forms of the ones behind them as they are. -/
theorem ofTexts_append {later : List Argument} (h : Argument.ofTexts texts = .ok arguments)
    (whole : .separator ∉ arguments) {more : List (List Char)}
    (hmore : Argument.ofTexts more = .ok later) :
    Argument.ofTexts (texts ++ more) = .ok (arguments ++ later) := by
  induction texts generalizing arguments with
  | nil =>
    cases h
    exact hmore
  | cons text rest ih =>
    cases hform : Argument.ofText text with
    | error error =>
      rw [Argument.ofTexts, hform] at h
      cases h
    | ok form =>
      by_cases hseparator : form = .separator
      · subst hseparator
        rw [Argument.ofTexts, hform] at h
        cases h
        simp at whole
      · rw [ofTexts_cons hform hseparator] at h
        obtain ⟨forms, hforms, rfl⟩ := map_eq_ok.mp h
        have whole_rest : .separator ∉ forms := by
          intro hmem
          apply whole
          simp [hmem]
        rw [List.cons_append, ofTexts_cons hform hseparator, ih hforms whole_rest]
        rfl

/-- What arguments ask for is read off their actions, and nothing is left over. -/
theorem parseArguments_eq_run :
    parseArguments texts = .ok (.run s) ↔
      ∃ arguments, Argument.ofTexts texts = .ok arguments ∧
        carryOut .standard (actions none arguments) = .ok (.run s) ∧ s.leftOver = [] := by
  unfold parseArguments
  constructor
  · intro h
    obtain ⟨arguments, forms, h⟩ := bind_eq_ok.mp h
    obtain ⟨intent, carried, h⟩ := bind_eq_ok.mp h
    cases intent with
    | showHelp => cases h
    | run final =>
      by_cases complete : final.leftOver = []
      · simp only [complete, if_true] at h
        cases h
        exact ⟨arguments, forms, carried, complete⟩
      · simp [complete] at h
  · rintro ⟨arguments, forms, carried, complete⟩
    simp [forms, bind, Except.bind, carried, complete]

/-- A name without an equals sign is split from its value. -/
theorem splitValue_append {name : List Char} (h : '=' ∉ name) (value : List Char) :
    Argument.splitValue (name ++ '=' :: value) = (name, some value) := by
  have before : ∀ c ∈ name, (c != '=') = true := by
    intro c hc
    simp only [bne_iff_ne]
    rintro rfl
    exact h hc
  rw [Argument.splitValue, List.dropWhile_append_of_pos before, List.takeWhile_append_of_pos before]
  simp

/-- A long form is read as its option with the value. -/
theorem ofText_longArgument (flag : Flag) (value : List Char) :
    Argument.ofText (longArgument flag value) = .ok (.long flag (some value)) := by
  have cut : Argument.splitValue (flag.long ++ '=' :: value) = (flag.long, some value) := by
    apply splitValue_append
    cases flag <;> decide
  have known : Flag.ofLong? flag.long = some flag := by
    cases flag <;> decide
  rw [longArgument, Argument.ofText]
  · simp only [cut, known]
  · simp

/-- Long forms of one option are read as this option with each value. -/
theorem ofTexts_longArgument (flag : Flag) (values : List (List Char)) :
    Argument.ofTexts (values.map (longArgument flag)) =
      .ok (values.map fun value ↦ .long flag (some value)) := by
  induction values with
  | nil => rfl
  | cons value rest ih =>
    rw [List.map_cons, ofTexts_cons (ofText_longArgument flag value) (by simp), ih]
    rfl

/-- Lines to evaluate are added to the lines so far. -/
theorem carryOut_evaluate (s : Settings) (lines : List (List Char)) :
    carryOut s (actions none (lines.map fun line ↦ .long .evaluate (some line))) =
      .ok (.run { s with lines := s.lines ++ lines }) := by
  induction lines generalizing s with
  | nil => simp [actions, carryOut]
  | cons line rest ih =>
    simp [actions, Flag.takesValue, carryOut, Settings.takeValue, ih]

/-- Lines to evaluate can be put behind any options. -/
theorem parseArguments_append (h : parseArguments options = .ok (.run s))
    (lines : List (List Char)) :
    parseArguments (options ++ lines.map (longArgument .evaluate)) =
      .ok (.run { s with lines := s.lines ++ lines }) := by
  obtain ⟨arguments, forms, carried, complete⟩ := parseArguments_eq_run.mp h
  have taken := (isTaken_of_carryOut carried complete).2
  apply parseArguments_eq_run.mpr
  refine ⟨_, ofTexts_append forms (separator_not_mem taken) (ofTexts_longArgument _ lines), ?_,
    complete⟩
  rw [actions_append taken, carryOut_append carried, carryOut_evaluate]

/-- The prompt is started if there are no lines to evaluate and the precision is one. -/
theorem plan_eq_interact {prompt : Prompt} :
    plan texts = .interact prompt ↔
      ∃ s p, parseArguments texts = .ok (.run s) ∧ s.lines = [] ∧
        Precision.ofInt? s.precision = some p ∧ prompt = .start p s.verbosity := by
  unfold plan
  constructor
  · intro h
    split at h
    · cases h
    · cases h
    · next s hs =>
      split at h
      · split at h <;> cases h
      · next p hp =>
        by_cases hlines : s.lines = []
        · simp only [hlines, List.isEmpty_nil, if_true] at h
          cases h
          exact ⟨s, p, hs, hlines, hp, rfl⟩
        · simp [hlines] at h
  · rintro ⟨s, p, hs, hlines, hp, rfl⟩
    simp [hs, hp, hlines]

/-- Lines behind options that start the prompt are evaluated, with the precision and the tracing
that the prompt would have. -/
theorem plan_evaluate {p : Precision} {verbosity : Nat}
    (start : plan options = .interact (.start p verbosity)) (filled : lines ≠ []) :
    plan (options ++ lines.map (longArgument .evaluate)) =
      .finish (if (evaluateLines p verbosity Memory.empty lines).2 then 1 else 0)
        (evaluateLines p verbosity Memory.empty lines).1 := by
  obtain ⟨s, q, hs, hlines, hq, same⟩ := plan_eq_interact.mp start
  cases same
  simp [plan, parseArguments_append hs lines, hq, hlines, filled]

end

/-! ### Options for a precision -/

section

variable {text : List Char} {p : Precision}

/-- A digit is no blank. -/
theorem isIntegerBlank_of_isDigit {c : Char} (h : Digits.isDigit c = true) :
    isIntegerBlank c = false :=
  Digits.of_isDigit (P := fun c ↦ isIntegerBlank c = false) (by decide) h

/-- There are no blanks to drop before digits. -/
theorem dropWhile_isIntegerBlank (digits : ∀ c ∈ text, Digits.isDigit c = true) :
    text.dropWhile isIntegerBlank = text := by
  cases text with
  | nil => rfl
  | cons c rest => simp [isIntegerBlank_of_isDigit (digits c (by simp))]

/-- An ASCII digit stays. -/
theorem toAsciiDigit_of_isDigit {c : Char} (h : Digits.isDigit c = true) :
    Decimal.toAsciiDigit c = c :=
  Digits.of_isDigit (P := fun c ↦ Decimal.toAsciiDigit c = c) (by decide) h

/-- Nothing is dropped from a text without underscores. -/
theorem dropSeparators_eq_self (h : '_' ∉ text) : dropSeparators text = text := by
  fun_induction dropSeparators text <;> simp_all

/-- Digits are read as the number that they denote, unless there are too many. -/
theorem readInteger?_digits (digits : ∀ c ∈ text, Digits.isDigit c = true) (filled : text ≠ [])
    (few : text.length ≤ maxIntegerDigits) : readInteger? text = some (Digits.read text : Int) := by
  have front : text.dropWhile isIntegerBlank = text := dropWhile_isIntegerBlank digits
  have back : text.reverse.dropWhile isIntegerBlank = text.reverse := by
    apply dropWhile_isIntegerBlank
    simpa using digits
  have ascii : text.map Decimal.toAsciiDigit = text := by
    conv_rhs => rw [← List.map_id text]
    apply List.map_congr_left
    intro c hc
    exact toAsciiDigit_of_isDigit (digits c hc)
  have plain : dropSeparators text = text := by
    apply dropSeparators_eq_self
    intro underscore
    exact absurd (digits '_' underscore) (by decide)
  have short : ¬ maxIntegerDigits < text.countP Digits.isDigit := by
    have := List.countP_le_length (l := text) (p := Digits.isDigit)
    omega
  simp only [readInteger?, front, back, List.reverse_reverse, ascii, plain, short, if_false]
  exact Decimal.readSigned?_digits digits filled

/-- A precision is read back from its digits. -/
theorem readInteger?_write {n : Nat} (positive : 0 < n) (h : n ≤ Precision.maxDigits) :
    readInteger? (Digits.write n) = some (n : Int) := by
  have digits : ∀ c ∈ Digits.write n, Digits.isDigit c = true := by
    intro c hc
    exact Digits.isDigit_of_mem_write hc
  have few : (Digits.write n).length ≤ maxIntegerDigits := by
    obtain ⟨d, later, hwrite, hd⟩ := Digits.exists_write_eq_cons positive
    have least : Digits.tenTo later.length ≤ Digits.read (d :: later) :=
      Digits.tenTo_le_read (digits d (by simp [hwrite])) hd
    rw [← hwrite, Digits.read_write] at least
    have most : Precision.maxDigits < Digits.tenTo 18 := by decide
    have shorter : later.length < 18 := by
      by_contra long
      have := Digits.tenTo_le_tenTo (Nat.le_of_not_lt long)
      omega
    simp only [hwrite, List.length_cons, maxIntegerDigits]
    omega
  rw [readInteger?_digits digits (Digits.write_ne_nil n) few, Digits.read_write]

/-- Options for a precision and for tracing. -/
def optionsFor (p : Precision) (verbosity : Nat) : List (List Char) :=
  longArgument .precision (Digits.write p.digits) :: List.replicate verbosity ['-', 'v']

/-- Short forms that ask for tracing are read as such. -/
theorem ofTexts_verbose (verbosity : Nat) :
    Argument.ofTexts (List.replicate verbosity ['-', 'v']) =
      .ok (List.replicate verbosity (.short .verbose [])) := by
  induction verbosity with
  | zero => rfl
  | succ verbosity ih =>
    have form : Argument.ofText ['-', 'v'] = .ok (.short .verbose []) := rfl
    rw [List.replicate_succ, ofTexts_cons form (by simp), ih]
    rfl

/-- Asking for tracing adds to the verbosity. -/
theorem carryOut_verbose (s : Settings) (verbosity : Nat) :
    carryOut s (actions none (List.replicate verbosity (.short .verbose []))) =
      .ok (.run { s with verbosity := s.verbosity + verbosity }) := by
  induction verbosity generalizing s with
  | zero => simp [actions, carryOut]
  | succ verbosity ih =>
    simp [List.replicate_succ, actions, Bundle.read, Flag.takesValue, carryOut, ih]
    omega

/-- Every precision that can be asked for can be had at the prompt, with any tracing. -/
theorem plan_optionsFor (h : p.digits ≤ Precision.maxDigits) (verbosity : Nat) :
    plan (optionsFor p verbosity) = .interact (.start p verbosity) := by
  have digits : readInteger? (Digits.write p.digits) = some (p.digits : Int) :=
    readInteger?_write p.digits_pos h
  have settings : parseArguments (optionsFor p verbosity) =
      .ok (.run ⟨[], verbosity, p.digits, []⟩) := by
    apply parseArguments_eq_run.mpr
    refine ⟨.long .precision (some (Digits.write p.digits)) ::
      List.replicate verbosity (.short .verbose []), ?_, ?_, rfl⟩
    · rw [optionsFor, ofTexts_cons (ofText_longArgument _ _) (by simp), ofTexts_verbose]
      rfl
    · simp [actions, Flag.takesValue, carryOut, Settings.takeValue, digits, carryOut_verbose,
        Settings.standard]
  apply plan_eq_interact.mpr
  refine ⟨_, p, settings, rfl, ?_, rfl⟩
  simp [Precision.ofInt?, p.digits_pos, h]

end

end FuzzyCalc.Console
