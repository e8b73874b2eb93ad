import FuzzyCalc.Proofs.Evaluation

/-!
# Lines that share no variable

A line reads no variables but those whose letters occur in it, and it writes to one of them at most.
So it is evaluated alike on all memories that agree on its letters, and two lines can change places
if neither assigns to a letter of the other.
-/

namespace FuzzyCalc

open Stack

/-! ### Memories that agree on a text -/

/-- The variables whose letters occur in a text have the same values, or both have none. -/
def Memory.AgreeOn (text : List Char) (m n : Memory) : Prop :=
  ∀ letter : Letter, letter.toChar ∈ text → m.value? letter = n.value? letter

section

variable {p : Precision} {m n : Memory} {text part : List Char} {letter : Letter}
  {x y : Decimal}

/-- Memories that agree on a text agree on its parts. -/
theorem Memory.AgreeOn.mono (h : AgreeOn text m n) (sub : part ⊆ text) : AgreeOn part m n := by
  intro letter hletter
  exact h letter (sub hletter)

/-- A number put into the slot of a letter makes no difference where the letter does not occur. -/
theorem Memory.agreeOn_put (h : letter.toChar ∉ text) : AgreeOn text (m.put letter x) m := by
  intro other hother
  have different : letter ≠ other := by
    intro heq
    subst heq
    exact h hother
  simp [value?_put, different]

/-- Numbers are put into the slots of two letters in either order. -/
theorem Memory.put_comm {other : Letter} (h : letter ≠ other) :
    (m.put letter x).put other y = (m.put other y).put letter x := by
  have different : letter.index.val ≠ other.index.val := by
    intro heq
    apply h
    cases letter
    cases other
    simpa [Fin.ext_iff] using heq
  simp only [put]
  rw [Vector.set_comm _ _ different]

/-- A lexeme is read alike if the memories agree on it. -/
theorem Lexeme.toToken_congr {lexeme : Lexeme} (h : Memory.AgreeOn lexeme.text m n) :
    lexeme.toToken m = lexeme.toToken n := by
  cases lexeme with
  | letter l =>
    have same : m.value? l = n.value? l := h l (by simp [text])
    simp only [toToken, Memory.read, same]
  | numeral digits | symbol s | stray c next => rfl

/-- Lexemes that are read alike one by one are read alike. -/
theorem Reading.ofLexemes_congr {lexemes : List Lexeme} (offset : Nat)
    (h : ∀ lexeme ∈ lexemes, lexeme.toToken m = lexeme.toToken n) :
    ofLexemes m offset lexemes = ofLexemes n offset lexemes := by
  induction lexemes generalizing offset with
  | nil => rfl
  | cons lexeme rest ih =>
    have first := h lexeme (by simp)
    have later : ∀ lexeme ∈ rest, lexeme.toToken m = lexeme.toToken n := by
      intro lexeme hlexeme
      exact h lexeme (by simp [hlexeme])
    simp only [ofLexemes, first, ih _ later]

/-- A text is scanned alike if the memories agree on it. -/
theorem Reading.scan_congr (h : Memory.AgreeOn text m n) (start : Nat) :
    scan m text start = scan n text start := by
  apply ofLexemes_congr
  intro lexeme hlexeme
  apply Lexeme.toToken_congr
  intro letter hletter
  apply h
  exact List.mem_of_mem_drop (Lexeme.mem_of_mem_split hlexeme hletter)

/-- An expression is evaluated alike, with the same trace, if the memories agree on its text. -/
theorem evaluateExpression_congr (h : Memory.AgreeOn text m n) (start : Nat) :
    evaluateExpression p m text start = evaluateExpression p n text start := by
  simp only [evaluateExpression, Reading.scan_congr h start]

/-- A line has the same outcome and trace if the memories agree on it. -/
theorem evaluateLine_agree (h : Memory.AgreeOn text m n) :
    (evaluateLine p m text).result = (evaluateLine p n text).result ∧
      (evaluateLine p m text).trace = (evaluateLine p n text).trace := by
  have same := evaluateExpression_congr (p := p) h
  rcases line_cases text with ⟨c, rest, rfl, hc⟩ | ⟨c, rest, letter, rfl, hc⟩ | expression
  · simp [evaluateLine_badName hc]
  · cases hx : (evaluateExpression p n (c :: ':' :: rest) 2).result with
    | ok x => simp [evaluateLine_assignment hc, same, hx]
    | error failure => simp [evaluateLine_failure hc, same, hx]
  · simp [evaluateLine_expression expression, same]

/-- What a line assigns is the same if the memories agree on it. -/
theorem assignment?_congr (h : Memory.AgreeOn text m n) :
    assignment? p m text = assignment? p n text := by
  unfold assignment?
  split
  · next c expression =>
    have sub : expression ⊆ c :: ':' :: expression := by
      intro d hd
      simp [hd]
    rw [(evaluateLine_agree (h.mono sub)).1]
  · rfl

end

/-! ### Two lines -/

section

variable {p : Precision} {m : Memory} {first second : List Char}

/-- A line in which the letter that another line assigns does not occur cannot tell whether that
line has been evaluated. -/
theorem agreeOn_evaluateLine
    (h : ∀ entry ∈ assignment? p m first, entry.1.toChar ∉ second) :
    Memory.AgreeOn second (evaluateLine p m first).memory m := by
  rw [memory_evaluateLine]
  cases hfirst : assignment? p m first with
  | none => exact fun _ _ ↦ rfl
  | some entry => exact Memory.agreeOn_put (h entry hfirst)

/-- Two lines leave the same memory in either order if neither assigns to a letter of the other. -/
theorem memory_evaluateLine_comm
    (h : ∀ entry ∈ assignment? p m first, entry.1.toChar ∉ second)
    (h' : ∀ entry ∈ assignment? p m second, entry.1.toChar ∉ first) :
    (evaluateLine p (evaluateLine p m first).memory second).memory =
      (evaluateLine p (evaluateLine p m second).memory first).memory := by
  rw [memory_evaluateLine p (evaluateLine p m first).memory second,
    memory_evaluateLine p (evaluateLine p m second).memory first,
    assignment?_congr (agreeOn_evaluateLine h), assignment?_congr (agreeOn_evaluateLine h'),
    memory_evaluateLine p m first, memory_evaluateLine p m second]
  cases hfirst : assignment? p m first with
  | none => cases assignment? p m second <;> rfl
  | some one =>
    cases hsecond : assignment? p m second with
    | none => rfl
    | some other =>
      -- The letter of the second line occurs in it, and that of the first line does not.
      have different : one.1 ≠ other.1 := by
        intro heq
        obtain ⟨expression, rfl, -⟩ := assignment?_eq_some.mp hsecond
        apply h one hfirst
        simp [heq]
      exact Memory.put_comm different

end

/-- Lines interact only through the letters they share. A line has the same outcome and the same
trace on any two memories in which the letters that occur in it have the same values, and it leaves
them such that all variables agree that agreed before. So two lines, of which neither assigns to a
letter that occurs in the other, can change places: in either order each line has the outcome and
the trace that it has alone, and the memory at the end is the same. A line that fails assigns to no
letter. -/
theorem evaluateLine_independent (p : Precision) :
    (∀ (m n : Memory) (text : List Char),
      (∀ letter : Letter, letter.toChar ∈ text → m.value? letter = n.value? letter) →
        (evaluateLine p m text).result = (evaluateLine p n text).result ∧
        (evaluateLine p m text).trace = (evaluateLine p n text).trace ∧
        ∀ letter, m.value? letter = n.value? letter →
          (evaluateLine p m text).memory.value? letter =
            (evaluateLine p n text).memory.value? letter) ∧
    ∀ (m : Memory) (first second : List Char),
      (∀ entry ∈ assignment? p m first, entry.1.toChar ∉ second) →
      (∀ entry ∈ assignment? p m second, entry.1.toChar ∉ first) →
        let afterFirst := (evaluateLine p m first).memory
        let afterSecond := (evaluateLine p m second).memory
        (evaluateLine p afterSecond first).result = (evaluateLine p m first).result ∧
        (evaluateLine p afterSecond first).trace = (evaluateLine p m first).trace ∧
        (evaluateLine p afterFirst second).result = (evaluateLine p m second).result ∧
        (evaluateLine p afterFirst second).trace = (evaluateLine p m second).trace ∧
        (evaluateLine p afterFirst second).memory = (evaluateLine p afterSecond first).memory := by
  constructor
  · intro m n text agree
    obtain ⟨result, trace⟩ := evaluateLine_agree (p := p) agree
    refine ⟨result, trace, ?_⟩
    intro letter same
    rw [memory_evaluateLine, memory_evaluateLine, assignment?_congr agree]
    cases assignment? p n text with
    | none => exact same
    | some entry => simp [Memory.value?_put, same]
  · intro m first second h h'
    obtain ⟨result, trace⟩ := evaluateLine_agree (p := p) (agreeOn_evaluateLine h')
    obtain ⟨result', trace'⟩ := evaluateLine_agree (p := p) (agreeOn_evaluateLine h)
    exact ⟨result, trace, result', trace', memory_evaluateLine_comm h h'⟩

/-- With 0.6 for `x`, the lines `y:~x` and `z:x%` share the letter `x`, which neither assigns. In
either order `y` becomes 0.4 and `z` becomes 0.006. -/
theorem evaluateLine_independent_complement :
    let m := Memory.empty.put ⟨49⟩ (.finite ⟨false, 6, -1⟩)
    let first := ['y', ':', '~', 'x']
    let second := ['z', ':', 'x', '%']
    let afterFirst := (evaluateLine .standard m first).memory
    let afterSecond := (evaluateLine .standard m second).memory
    (∀ letter : Letter, letter.toChar ∈ second → m.value? letter = afterFirst.value? letter) ∧
    (evaluateLine .standard m second).result = (evaluateLine .standard afterFirst second).result ∧
    (∀ entry ∈ assignment? .standard m first, entry.1.toChar ∉ second) ∧
    (∀ entry ∈ assignment? .standard m second, entry.1.toChar ∉ first) ∧
    (evaluateLine .standard afterFirst second).memory =
      (evaluateLine .standard afterSecond first).memory ∧
    (evaluateLine .standard afterFirst second).memory =
      (m.put ⟨50⟩ (.finite ⟨false, 4, -1⟩)).put ⟨51⟩ (.finite ⟨false, 6, -3⟩) := by
  intro m first second afterFirst afterSecond
  have assignsFirst : assignment? .standard m first = some (⟨50⟩, .finite ⟨false, 4, -1⟩) := by
    decide +kernel
  have assignsSecond : assignment? .standard m second = some (⟨51⟩, .finite ⟨false, 6, -3⟩) := by
    decide +kernel
  have apart : ∀ entry ∈ assignment? .standard m first, entry.1.toChar ∉ second := by
    rw [assignsFirst]
    rintro entry ⟨⟩
    decide
  have apart' : ∀ entry ∈ assignment? .standard m second, entry.1.toChar ∉ first := by
    rw [assignsSecond]
    rintro entry ⟨⟩
    decide
  have agree : ∀ letter : Letter, letter.toChar ∈ second →
      m.value? letter = afterFirst.value? letter := by
    intro letter hletter
    exact (agreeOn_evaluateLine apart letter hletter).symm
  obtain ⟨alike, exchange⟩ := evaluateLine_independent .standard
  obtain ⟨-, -, -, -, memory⟩ := exchange m first second apart apart'
  exact ⟨agree, (alike m afterFirst second agree).1, apart, apart', memory, by decide +kernel⟩

end FuzzyCalc
