import FuzzyCalc.Session
import FuzzyCalc.Proofs.Values

/-!
# The values of a session

A session begins without values. As long as its caller puts only finite numbers without a minus sign
into variables, no other number is ever in a slot, on a stack or in an answer, whatever the lines
and the precisions are. So a slot that has been written never counts as empty: a variable has the
very value it was assigned until it is written again.
-/

namespace FuzzyCalc

open Stack

/-- Whatever is in a slot is finite and has no minus sign. -/
def Memory.Unsigned (m : Memory) : Prop :=
  ∀ (letter : Letter) (x : Decimal), m.slots.get letter.index = some x → x.Nonneg false

namespace Memory

variable {m : Memory} {letter : Letter} {x : Decimal}

/-- Nothing is in the slots at first. -/
theorem unsigned_empty : empty.Unsigned := by
  intro letter x h
  cases (Vector.getElem_replicate letter.index.isLt).symm.trans h

/-- Numbers without a minus sign can be put into slots. -/
theorem Unsigned.put (hm : m.Unsigned) (hx : x.Nonneg false) : (m.put letter x).Unsigned := by
  intro other y h
  rw [slots_put] at h
  split at h
  · cases h
    exact hx
  · exact hm other y h

/-- A slot that has been written never counts as empty. -/
theorem Unsigned.value? (hm : m.Unsigned) (letter : Letter) :
    m.value? letter = m.slots.get letter.index := by
  change (m.slots.get letter.index).filter _ = _
  cases hslot : m.slots.get letter.index with
  | none => rfl
  | some x => simp [(hm letter x hslot).isBelowZero]

/-- The values of all variables are finite and have no minus sign. -/
theorem Unsigned.nonneg (hm : m.Unsigned) : m.Nonneg false := by
  intro letter x h
  rw [hm.value? letter] at h
  exact hm letter x h

end Memory

namespace Request

/-- The line that a request evaluates, if it evaluates one. -/
def line? : Request → Option (List Char)
  | evaluate text => some text
  | parse text => some text
  | _ => none

/-- A request that puts no other numbers into variables than finite ones without a minus sign. -/
def Unsigned : Request → Prop
  | set _ x => x.Nonneg false
  | _ => True

end Request

/-- An answer without a breach, in which every number is finite and has no minus sign. -/
def Answer.Sound : Answer → Prop
  | outcome result | parsed result =>
    result ≠ .error .breach ∧ ∀ x, result = .ok (.value x) → x.Nonneg false
  | listing vars => ∀ entry ∈ vars, entry.2.Nonneg false
  | read result => ∀ x, result = .ok x → x.Nonneg false
  | _ => True

namespace Session

variable {s : Session} {request : Request} {requests : List Request} {letter : Letter}
  {text : List Char}

/-- How a line ends if it is evaluated next. -/
def outcome (s : Session) (text : List Char) : Except Failure Yield :=
  (evaluateLine s.precision s.memory text).result

/-- Whether a request writes to a variable or clears it. -/
def Writes (s : Session) (letter : Letter) : Request → Prop
  | .evaluate text | .parse text =>
    text.head? = some letter.toChar ∧ s.outcome text = .ok .assignment
  | .set name _ => Letter.ofName? name = some letter
  | .clear => True
  | _ => False

/-- Whether requests leave a variable alone, each in the session that it meets. -/
def Keeps (letter : Letter) (s : Session) : List Request → Prop
  | [] => True
  | request :: rest => ¬ s.Writes letter request ∧ Keeps letter (s.step request).1 rest

/-! ### One step -/

/-- A line changes the variables as its evaluation does. -/
theorem memory_step_line (h : request.line? = some text) :
    (s.step request).1.memory = (evaluateLine s.precision s.memory text).memory := by
  cases request with
  | evaluate line | parse line =>
    cases h
    rfl
  | _ => cases h

/-- What is traced of a line is what its evaluation leaves, if the session traces lines. -/
theorem trace_step_line (h : request.line? = some text) :
    (s.step request).2.2 = s.report (evaluateLine s.precision s.memory text).trace := by
  cases request with
  | evaluate line | parse line =>
    cases h
    rfl
  | _ => cases h

/-- Nothing but lines is traced. -/
theorem trace_step_of_no_line (h : request.line? = none) : (s.step request).2.2 = [] := by
  cases request with
  | evaluate line | parse line => cases h
  | setPrecision digits | set name x | letter n =>
    simp only [step]
    split <;> rfl
  | _ => rfl

/-- Every stack that is traced is one on the way of pushing the tokens of a line. -/
theorem passes_of_mem_trace_step {offset : Nat} {token : Token} {stack : Stack}
    (h : .taken offset token stack ∈ (s.step request).2.2) :
    ∃ text, request.line? = some text ∧
      Passes s.precision
        ((Reading.scan s.memory text (expressionStart text)).tokens.map Prod.snd) stack := by
  cases hline : request.line? with
  | none =>
    rw [trace_step_of_no_line hline] at h
    cases h
  | some text =>
    refine ⟨text, rfl, ?_⟩
    rw [trace_step_line hline, report] at h
    split at h
    · cases h
    · exact passes_of_mem_trace h

/-- An assignment that goes through writes to its variable. -/
theorem writes_of_line {rest : List Char} (h : request.line? = some (letter.toChar :: rest))
    (assigned : s.outcome (letter.toChar :: rest) = .ok .assignment) :
    s.Writes letter request := by
  cases request with
  | evaluate line | parse line =>
    cases h
    exact ⟨rfl, assigned⟩
  | _ => cases h

/-- What a step does to the variables: an assignment goes through, a number is put into a slot, all
slots are cleared, or nothing. -/
theorem memory_step (s : Session) (request : Request) :
    (∃ letter rest x, request.line? = some (letter.toChar :: ':' :: rest) ∧
      s.outcome rest = .ok (.value x) ∧
      s.outcome (letter.toChar :: ':' :: rest) = .ok .assignment ∧
      (s.step request).1.memory = s.memory.put letter x) ∨
    (∃ name letter x, request = .set name x ∧ Letter.ofName? name = some letter ∧
      (s.step request).1.memory = s.memory.put letter x) ∨
    (request = .clear ∧ (s.step request).1.memory = Memory.empty) ∨
    (s.step request).1.memory = s.memory := by
  cases hline : request.line? with
  | some text =>
    rw [memory_step_line hline]
    rcases evaluateLine_memory s.precision s.memory text with
      ⟨letter, rest, x, rfl, value, assigned, hmemory⟩ | ⟨-, hmemory⟩
    · exact .inl ⟨letter, rest, x, rfl, value, assigned, hmemory⟩
    · exact .inr (.inr (.inr hmemory))
  | none =>
    cases request with
    | evaluate text | parse text => cases hline
    | set name x =>
      cases hname : Letter.ofName? name with
      | none => exact .inr (.inr (.inr (by simp [step, Memory.putName?, hname])))
      | some letter =>
        exact .inr (.inl ⟨name, letter, x, rfl, hname, by simp [step, Memory.putName?, hname]⟩)
    | clear => exact .inr (.inr (.inl ⟨rfl, rfl⟩))
    | vars | get name | index name => exact .inr (.inr (.inr rfl))
    | setPrecision digits | letter n =>
      refine .inr (.inr (.inr ?_))
      simp only [step]
      split
      · rfl
      · rfl

/-- A step keeps numbers with a minus sign out of the slots. -/
theorem unsigned_step (hs : s.memory.Unsigned) (hr : request.Unsigned) :
    (s.step request).1.memory.Unsigned := by
  rcases s.memory_step request with ⟨letter, rest, x, -, value, -, hmemory⟩ |
    ⟨name, letter, x, rfl, -, hmemory⟩ | ⟨-, hmemory⟩ | hmemory
  · rw [hmemory]
    exact hs.put (nonneg_of_evaluateLine hs.nonneg value)
  · rw [hmemory]
    exact hs.put hr
  · rw [hmemory]
    exact Memory.unsigned_empty
  · rw [hmemory]
    exact hs

/-- A line ends without a breach, and a value has no minus sign if none is in a slot. -/
theorem sound_outcome (hs : s.memory.Unsigned) (text : List Char) :
    s.outcome text ≠ .error .breach ∧ ∀ x, s.outcome text = .ok (.value x) → x.Nonneg false :=
  ⟨evaluateLine_ne_breach s.precision s.memory text, fun _ h ↦ nonneg_of_evaluateLine hs.nonneg h⟩

/-- No number in an answer has a minus sign if none in a slot has. -/
theorem sound_step (hs : s.memory.Unsigned) (request : Request) : (s.step request).2.1.Sound := by
  cases request with
  | evaluate text | parse text => exact sound_outcome hs text
  | setPrecision digits | set name x | letter n =>
    simp only [step]
    split
    · trivial
    · trivial
  | clear | index name => trivial
  | vars =>
    intro entry hentry
    obtain ⟨letter, -, hletter⟩ := List.mem_filterMap.mp hentry
    obtain ⟨x, hx, rfl⟩ := Option.map_eq_some_iff.mp hletter
    exact hs.nonneg letter x hx
  | get name =>
    intro x hx
    unfold Memory.readName at hx
    split at hx
    · next letter _ =>
      unfold Memory.read at hx
      split at hx
      · next y hy =>
        cases hx
        exact hs.nonneg letter x hy
      · cases hx
    · cases hx

/-- A variable keeps its value in a step that does not write to it. -/
theorem value?_step (h : ¬ s.Writes letter request) :
    (s.step request).1.memory.value? letter = s.memory.value? letter := by
  rcases s.memory_step request with ⟨other, rest, x, hline, -, assigned, hmemory⟩ |
    ⟨name, other, x, rfl, hname, hmemory⟩ | ⟨rfl, -⟩ | hmemory
  · have different : other ≠ letter := by
      rintro rfl
      exact h (writes_of_line hline assigned)
    rw [hmemory, Memory.value?_put, if_neg different]
  · have different : other ≠ letter := by
      rintro rfl
      exact h hname
    rw [hmemory, Memory.value?_put, if_neg different]
  · exact absurd trivial h
  · rw [hmemory]

/-! ### Whole runs -/

/-- A run keeps numbers with a minus sign out of the slots and out of its answers. -/
theorem sound_run (hs : s.memory.Unsigned) (hr : ∀ request ∈ requests, request.Unsigned) :
    (s.run requests).1.memory.Unsigned ∧ ∀ answer ∈ (s.run requests).2, answer.1.Sound := by
  induction requests generalizing s with
  | nil =>
    refine ⟨hs, ?_⟩
    intro answer h
    cases h
  | cons request rest ih =>
    obtain ⟨hfirst, hrest⟩ := List.forall_mem_cons.mp hr
    obtain ⟨final, answers⟩ := ih (unsigned_step hs hfirst) hrest
    exact ⟨final, List.forall_mem_cons.mpr ⟨sound_step hs request, answers⟩⟩

/-- A variable keeps its value as long as it is left alone. -/
theorem value?_run (h : s.Keeps letter requests) :
    (s.run requests).1.memory.value? letter = s.memory.value? letter := by
  induction requests generalizing s with
  | nil => rfl
  | cons request rest ih =>
    obtain ⟨hfirst, hrest⟩ := h
    rw [← value?_step hfirst]
    exact ih hrest

/-- After an assignment that goes through, the variable has the value of the expression as long as
it is left alone. -/
theorem outcome_letter_run {expression : List Char} (hs : s.memory.Unsigned)
    (hline : request.line? = some (letter.toChar :: ':' :: expression))
    (assigned : s.outcome (letter.toChar :: ':' :: expression) = .ok .assignment) :
    ∃ x, s.outcome expression = .ok (.value x) ∧
      ∀ later, (s.step request).1.Keeps letter later →
        ((s.step request).1.run later).1.outcome [letter.toChar] = .ok (.value x) := by
  obtain ⟨x, value⟩ := exists_value_of_assigned letter assigned
  refine ⟨x, value, ?_⟩
  intro later kept
  have stored := (evaluateLine_assigns letter value).2
  have notBelow := (nonneg_of_evaluateLine hs.nonneg value).isBelowZero
  have written : (s.step request).1.memory.value? letter = some x := by
    rw [memory_step_line hline, stored, Memory.value?_put, if_pos rfl, notBelow]
    rfl
  exact evaluateLine_letter.mpr ((value?_run kept).trans written)

/-- In a session that begins without values, and whose caller puts only finite numbers without a
minus sign into variables, every line ends with a value, an assignment or a complaint, and every
number in an answer, in a slot or on the stack at any moment is finite and has no minus sign; the
stacks that are traced are such stacks on the way. So no slot that has been written counts as empty:
after an assignment `p:E` that goes through, `p` has the very value of `E` until it is written again
or cleared. The requests may change the precision at any time. -/
theorem run_fresh (p : Precision) (verbosity : Nat) (requests : List Request)
    (hr : ∀ request ∈ requests, request.Unsigned) :
    let run := (fresh p verbosity).run requests
    (∀ answer ∈ run.2, answer.1.Sound) ∧
    run.1.memory.Unsigned ∧
    (∀ letter : Letter, run.1.memory.value? letter = run.1.memory.slots.get letter.index) ∧
    (∀ text start stack x,
      Passes run.1.precision ((Reading.scan run.1.memory text start).tokens.map Prod.snd) stack →
        .number x ∈ stack → x.Nonneg false) ∧
    (∀ request offset token stack, .taken offset token stack ∈ (run.1.step request).2.2 →
      ∃ text, request.line? = some text ∧
        Passes run.1.precision
          ((Reading.scan run.1.memory text (expressionStart text)).tokens.map Prod.snd) stack) ∧
    ∀ request letter expression, request.line? = some (letter.toChar :: ':' :: expression) →
      run.1.outcome (letter.toChar :: ':' :: expression) = .ok .assignment →
      ∃ x, run.1.outcome expression = .ok (.value x) ∧
        ∀ later, (run.1.step request).1.Keeps letter later →
          ((run.1.step request).1.run later).1.outcome [letter.toChar] = .ok (.value x) := by
  intro run
  have start : (fresh p verbosity).memory.Unsigned := Memory.unsigned_empty
  obtain ⟨unsigned, answers⟩ := sound_run start hr
  refine ⟨answers, unsigned, unsigned.value?, ?_, ?_, ?_⟩
  · intro text start stack x way hx
    exact nonneg_of_passes unsigned.nonneg way x hx
  · intro request offset token stack h
    exact passes_of_mem_trace_step h
  · intro request letter expression hline assigned
    exact outcome_letter_run unsigned hline assigned

/-- Whatever the precision is later, and though assigning to it again fails, `x` keeps the
percentage that it got when `y` was 50. -/
theorem run_fresh_percentage :
    let requests : List Request := [.set ['y'] (.finite ⟨false, 50, 0⟩), .setPrecision 3]
    let later : List Request :=
      [.setPrecision 1, .evaluate ['x', ':', '1', '/', '0'], .parse ['y', ':', '2']]
    let half : Decimal := .finite ⟨false, 5, -1⟩
    let s := ((fresh ⟨28, by decide⟩ 0).run requests).1
    let assigned := (s.step (.parse ['x', ':', 'y', '%'])).1
    (∀ request ∈ requests, request.Unsigned) ∧ assigned.Keeps ⟨49⟩ later ∧
      s.outcome ['y', '%'] = .ok (.value half) ∧
      (assigned.run later).1.outcome ['x'] = .ok (.value half) := by
  intro requests later half s assigned
  have admitted : ∀ request ∈ requests, request.Unsigned := by
    refine List.forall_mem_cons.mpr ⟨?_, List.forall_mem_cons.mpr ⟨trivial, nofun⟩⟩
    exact FiniteDecimal.nonneg_of_negative rfl
  have value : s.outcome ['y', '%'] = .ok (.value half) :=
    evaluateLine_result_eq_value.mpr (by decide +kernel)
  have goesThrough : s.outcome ['x', ':', 'y', '%'] = .ok .assignment :=
    (evaluateLine_assigns ⟨49⟩ value).1
  have kept : assigned.Keeps ⟨49⟩ later := by
    refine ⟨id, ?_, ?_, trivial⟩
    · rintro ⟨-, again⟩
      obtain ⟨x, hx⟩ := exists_value_of_assigned ⟨49⟩ again
      have divided := evaluateLine_result_eq_value.mp hx
      have refused : pushLexemes? ⟨1, by decide⟩ assigned.memory []
          (Lexeme.split ['1', '/', '0']) = none := by decide +kernel
      cases divided.symm.trans refused
    · rintro ⟨other, -⟩
      exact absurd other (by decide)
  obtain ⟨-, -, -, -, -, keeps⟩ := run_fresh ⟨28, by decide⟩ 0 requests admitted
  obtain ⟨x, hx, reads⟩ := keeps (.parse ['x', ':', 'y', '%']) ⟨49⟩ ['y', '%'] rfl goesThrough
  have reading := reads later kept
  cases value.symm.trans hx
  exact ⟨admitted, kept, value, reading⟩

end Session

end FuzzyCalc
