import FuzzyCalc.Proofs.Reduction
import FuzzyCalc.Proofs.Values

/-!
# Definitions in place of variables

A variable means its definition in parentheses. Where a text uses a variable, the definition can
stand in parentheses instead: nothing fuses at a parenthesis, the definition comes down to its value
above the parenthesis whatever is below, and the closing parenthesis sets the value free as if it
had been pushed there. Where no operand can stand, both are refused.
-/

namespace FuzzyCalc

open Stack

/-- A text with a definition in parentheses in place of every use of a variable. -/
def substitute (letter : Letter) (definition text : List Char) : List Char :=
  text.flatMap fun c ↦ if c = letter.toChar then '(' :: (definition ++ [')']) else [c]

section

variable {letter : Letter} {definition text : List Char}

/-- Where the variable is not used nothing changes. -/
theorem substitute_append_of_not_mem {unused : List Char} (h : letter.toChar ∉ unused) :
    substitute letter definition (unused ++ text) =
      unused ++ substitute letter definition text := by
  induction unused with
  | nil => rfl
  | cons c rest ih =>
    obtain ⟨hc, hrest⟩ := List.ne_and_not_mem_of_not_mem_cons h
    rw [List.cons_append, substitute, List.flatMap_cons, if_neg (Ne.symm hc)]
    exact congrArg (c :: ·) (ih hrest)

/-- A use of the variable becomes its definition. -/
theorem substitute_cons (rest : List Char) :
    substitute letter definition (letter.toChar :: rest) =
      '(' :: (definition ++ ')' :: substitute letter definition rest) := by
  rw [substitute, List.flatMap_cons, if_pos rfl, List.cons_append, List.append_assoc]
  rfl

/-- The first character stays, or becomes an opening parenthesis. -/
theorem head?_substitute {d : Char} (h : d ∈ (substitute letter definition text).head?) :
    d ∈ text.head? ∨ d = '(' := by
  cases text with
  | nil => cases h
  | cons c rest =>
    by_cases hc : c = letter.toChar
    · subst hc
      rw [substitute_cons] at h
      exact .inr (Option.some.inj h).symm
    · have unused : letter.toChar ∉ [c] := by simpa using Ne.symm hc
      rw [← List.singleton_append, substitute_append_of_not_mem unused] at h
      exact .inl h

end

/-! ### A group on the stack -/

section

variable {p : Precision} {m : Memory} {stack next : Stack} {v : Decimal} {letter : Letter}
  {definition : List Char}

/-- A text of this value comes down to it in parentheses, as if it had been pushed itself. -/
theorem pushLexemes?_group (hv : pushLexemes? p m [] (Lexeme.split definition) = some [.number v])
    (hs : WellShaped stack) :
    pushLexemes? p m stack (.symbol (.separator .opening) ::
        (Lexeme.split definition ++ [.symbol (.separator .closing)])) =
      (push p stack (.number v)).toOption := by
  obtain ⟨tokens, htokens⟩ := exists_tokens_of_pushLexemes? hv
  have asTokens : pushLexemes? p m stack (.symbol (.separator .opening) ::
        (Lexeme.split definition ++ [.symbol (.separator .closing)])) =
      (pushMany p stack (.opening :: (tokens ++ [.closing]))).toOption := by
    rw [pushLexemes?_cons, pushMany_cons, toOption_bind]
    congr 1
    funext opened
    rw [pushLexemes?_append, htokens, pushMany_append, toOption_bind]
    congr 1
    funext inner
    rw [pushLexemes?_singleton, pushMany_singleton]
    rfl
  rw [asTokens]
  rcases hs.awaiting_or_number with ha | ⟨x, below, rfl⟩
  · have value : pushMany p [] tokens = .ok [.number v] := by
      rw [← toOption_eq_some, ← htokens]
      exact hv
    obtain ⟨level, rfl, hlevel⟩ := pushMany_eq_number_iff.mp value
    have group := Operand.pushMany_tokens p (.group level) ha
    rw [Operand.tokens, Operand.eval, hlevel] at group
    rw [group]
    rfl
  · -- Neither the parenthesis nor the number can follow a number.
    rfl

/-- A lexeme that is not the variable is pushed in the same way whatever the variable is. -/
theorem pushLexeme?_put {x : Lexeme} (hx : x ≠ .letter letter) :
    pushLexeme? p (m.put letter v) stack x = pushLexeme? p m stack x := by
  cases x with
  | letter other =>
    have different : letter ≠ other := by
      rintro rfl
      exact hx rfl
    rw [pushLexeme?, pushLexeme?, Lexeme.toToken, Lexeme.toToken, Memory.read, Memory.read,
      Memory.value?_put, if_neg different]
  | numeral text => rfl
  | symbol s => rfl
  | stray c next => rfl

/-- The variable is pushed as its value. -/
theorem pushLexeme?_put_self (hv : v.isBelowZero = false) :
    pushLexeme? p (m.put letter v) stack (.letter letter) =
      (push p stack (.number v)).toOption := by
  rw [pushLexeme?, Lexeme.toToken, Memory.read, Memory.value?_put, if_pos rfl, hv]
  rfl

/-- What a lexeme leaves is well-shaped. -/
theorem Stack.WellShaped.pushLexeme? {x : Lexeme} (hs : WellShaped stack)
    (h : Stack.pushLexeme? p m stack x = some next) : WellShaped next := by
  unfold Stack.pushLexeme? at h
  split at h
  · exact hs.push (toOption_eq_some.mp h)
  · cases h

/-! ### The whole text -/

/-- The definition in parentheses is scanned as such. -/
theorem split_group (hd : ∀ x ∈ Lexeme.split definition, x.Proper) (after : List Char) :
    Lexeme.split ('(' :: (definition ++ ')' :: after)) =
      (.symbol (.separator .opening) ::
        (Lexeme.split definition ++ [.symbol (.separator .closing)])) ++ Lexeme.split after := by
  have opening := Lexeme.split_parenthesis .opening (definition ++ ')' :: after)
  have closing := Lexeme.split_parenthesis .closing after
  have inner : Lexeme.split (definition ++ ')' :: after) =
      Lexeme.split definition ++ Lexeme.split (')' :: after) := by
    refine Lexeme.split_append hd ?_
    intro x _ d hd
    exact Lexeme.fuses_parenthesis (.inr (Option.some.inj hd).symm) x
  change Lexeme.split (Separator.opening.spelling ++ (definition ++ ')' :: after)) = _
  rw [opening, inner]
  change _ :: (_ ++ Lexeme.split (Separator.closing.spelling ++ after)) = _
  rw [closing, List.cons_append, List.append_assoc]
  rfl

/-- Where a text does not begin with the variable, its first lexeme stays what it is, or stray. -/
theorem exists_first_substitute {c : Char} {piece after : List Char}
    (hx : Lexeme.first c (piece ++ after) ≠ .letter letter)
    (ht : (Lexeme.first c (piece ++ after)).text = c :: piece) :
    ∃ y, Lexeme.split (substitute letter definition (c :: (piece ++ after))) =
        y :: Lexeme.split (substitute letter definition after) ∧
      ∀ stack, pushLexeme? p m stack y =
        pushLexeme? p (m.put letter v) stack (Lexeme.first c (piece ++ after)) := by
  have unused := Lexeme.not_mem_text_first hx
  rw [ht] at unused
  have same : substitute letter definition (c :: (piece ++ after)) =
      c :: (piece ++ substitute letter definition after) :=
    substitute_append_of_not_mem unused
  have seam : ∀ d ∈ (substitute letter definition after).head?,
      (Lexeme.first c (piece ++ after)).fuses d = false := by
    intro d hd
    rcases head?_substitute hd with hd | rfl
    · exact Lexeme.not_fuses_first rfl ht d hd
    · exact Lexeme.fuses_parenthesis (.inl rfl) _
  rw [same]
  rcases Lexeme.proper_or_stray c (piece ++ after) with proper | stray
  · have kept := Lexeme.first_of_text proper ht seam
    exact ⟨_, Lexeme.split_cons_append kept ht, fun stack ↦ (pushLexeme?_put hx).symm⟩
  · -- A stray character stays stray, and neither text gets past it.
    rw [stray] at ht seam
    obtain ⟨-, rfl⟩ := List.cons.inj ht
    have kept := Lexeme.first_stray stray seam
    refine ⟨_, Lexeme.split_cons_append kept rfl, ?_⟩
    intro stack
    rw [stray, pushLexeme?_stray, pushLexeme?_stray]

/-- On a well-shaped stack a text does the same with the definition in place of the variable. -/
theorem pushLexemes?_substitute
    (hd : pushLexemes? p m [] (Lexeme.split definition) = some [.number v])
    (hv : v.isBelowZero = false) (hs : WellShaped stack) (text : List Char) :
    pushLexemes? p m stack (Lexeme.split (substitute letter definition text)) =
      pushLexemes? p (m.put letter v) stack (Lexeme.split text) := by
  induction text using Lexeme.split_induction generalizing stack with
  | nil => rw [substitute, List.flatMap_nil, Lexeme.split_nil]; rfl
  | cons c piece after ht hcut ih =>
    -- What follows is equal whatever the first lexeme leaves.
    have goOn {first : Option Stack} (h : ∀ next, first = some next → WellShaped next) :
        first.bind (pushLexemes? p m · (Lexeme.split (substitute letter definition after))) =
          first.bind (pushLexemes? p (m.put letter v) · (Lexeme.split after)) := by
      cases first with
      | none => rfl
      | some next => exact ih (h next rfl)
    rw [hcut, pushLexemes?_cons]
    by_cases hx : Lexeme.first c (piece ++ after) = .letter letter
    · rw [hx] at ht
      obtain ⟨rfl, rfl⟩ := List.cons.inj ht
      rw [hx, List.nil_append, substitute_cons, split_group (proper_of_pushLexemes? hd),
        pushLexemes?_append, pushLexemes?_group hd hs, pushLexeme?_put_self hv]
      exact goOn fun next h ↦ hs.push (toOption_eq_some.mp h)
    · obtain ⟨y, hy, same⟩ := exists_first_substitute hx ht
      rw [hy, pushLexemes?_cons, same]
      exact goOn fun next h ↦ hs.pushLexeme? h

end

/-- A variable means its definition in parentheses. If the variables are finite and not below zero,
and a text has a value, then with that value for a letter every line evaluates to what the line with
the text in parentheses in place of the letter evaluates to before, or neither has a value. The text
may use the letter itself, which then means its old value, and the line may be any text. -/
theorem evaluateLine_substitute (p : Precision) (m : Memory) (letter : Letter)
    (definition text : List Char) (v : Decimal) (hm : m.Nonneg true)
    (hv : (evaluateLine p m definition).result = .ok (.value v)) (w : Decimal) :
    (evaluateLine p (m.put letter v) text).result = .ok (.value w) ↔
      (evaluateLine p m (substitute letter definition text)).result = .ok (.value w) := by
  have pushed := evaluateLine_result_eq_value.mp hv
  have notBelow := (nonneg_of_evaluateLine hm hv).isBelowZero
  have empty : WellShaped [] := trivial
  rw [evaluateLine_result_eq_value, evaluateLine_result_eq_value,
    pushLexemes?_substitute pushed notBelow empty]

/-- With 50 for `x`, one over the percentage of `x` can be written with `x` for the percentage. -/
theorem evaluateLine_substitute_percentage :
    let p : Precision := ⟨28, by decide⟩
    let m := Memory.empty.put ⟨49⟩ (.finite ⟨false, 50, 0⟩)
    let v : Decimal := .finite ⟨false, 5, -1⟩
    m.Nonneg true ∧ (evaluateLine p m ['x', '%']).result = .ok (.value v) ∧
      ∀ w, (evaluateLine p (m.put ⟨49⟩ v) ['1', '/', 'x']).result = .ok (.value w) ↔
        (evaluateLine p m ['1', '/', '(', 'x', '%', ')']).result = .ok (.value w) := by
  intro p m v
  have hm : m.Nonneg true := by
    intro letter x hx
    rw [Memory.value?_put] at hx
    split at hx
    · cases hx
      exact FiniteDecimal.nonneg_of_negative rfl
    · simp [Memory.value?, Memory.empty] at hx
  have hv : (evaluateLine p m ['x', '%']).result = .ok (.value v) :=
    evaluateLine_result_eq_value.mpr (by decide +kernel)
  exact ⟨hm, hv, evaluateLine_substitute p m ⟨49⟩ ['x', '%'] ['1', '/', 'x'] v hm hv⟩

end FuzzyCalc
