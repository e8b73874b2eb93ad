import FuzzyCalc.Proofs.SessionValues

/-!
# The variables as a log of writes

The slots of the variables are a view of a log: every assignment that goes through, every number put
into a variable and every clearing is an entry, and nothing else is. A variable has the number that
the latest entry since the last clearing gives it, as it was written, unless that number lies below
zero. Reading one variable and listing all of them tell the same.
-/

namespace FuzzyCalc

/-- A change of the variables. -/
inductive Write where
  /-- A variable gets a number. -/
  | put (letter : Letter) (x : Decimal)
  /-- All variables are cleared. -/
  | clear
  deriving DecidableEq, Repr, Inhabited

/-- The number that was last written to a letter since all were last cleared, in a log with the
latest write in front. -/
def lastWritten? (letter : Letter) : List Write → Option Decimal
  | [] => none
  | .clear :: _ => none
  | .put other x :: earlier => if other = letter then some x else lastWritten? letter earlier

namespace Memory

variable {m : Memory} {log : List Write} {letter : Letter} {x : Decimal}

/-- Carry out a write. -/
def write (m : Memory) : Write → Memory
  | .put letter x => m.put letter x
  | .clear => empty

/-- Every slot holds what a log says was last written to it. -/
def Refines (m : Memory) (log : List Write) : Prop :=
  ∀ letter : Letter, m.slots.get letter.index = lastWritten? letter log

/-- Empty slots go with an empty log. -/
theorem refines_empty : empty.Refines [] := by
  intro letter
  exact Vector.getElem_replicate letter.index.isLt

/-- A write is a new entry in front of the log. -/
theorem Refines.write (h : m.Refines log) (w : Write) : (m.write w).Refines (w :: log) := by
  intro letter
  cases w with
  | clear => exact refines_empty letter
  | put other x => simp only [Memory.write, slots_put, lastWritten?, h letter]

/-- A variable has the number last written to it, unless that lies below zero. -/
theorem Refines.value? (h : m.Refines log) (letter : Letter) :
    m.value? letter = (lastWritten? letter log).filter fun x ↦ !x.isBelowZero := by
  rw [← h letter]
  rfl

/-- A variable is read by its letter. -/
theorem readName_letter (m : Memory) (letter : Letter) :
    m.readName [letter.toChar] = m.read letter := by
  simp only [readName, Letter.ofName?, Letter.ofChar?_toChar]

/-- Reading succeeds where there is a value. -/
theorem read_eq_ok : m.read letter = .ok x ↔ m.value? letter = some x := by
  unfold read
  cases m.value? letter <;> simp

/-- Just the variables that can be read are listed, with their values. -/
theorem mem_assigned : (letter, x) ∈ m.assigned ↔ m.value? letter = some x := by
  simp [assigned, letter.mem_all]

/-- The letters are in the order of their characters: capitals first, and in the order of the
alphabet. -/
theorem pairwise_all : Letter.all.Pairwise fun a b ↦ a.toChar < b.toChar := by
  decide +kernel

/-- A listing is in the order of the letters, and each stands there once. -/
theorem pairwise_assigned (m : Memory) :
    m.assigned.Pairwise fun a b ↦ a.1.toChar < b.1.toChar := by
  apply pairwise_all.filterMap
  intro a b before entry hentry other hother
  obtain ⟨x, -, rfl⟩ := Option.map_eq_some_iff.mp hentry
  obtain ⟨y, -, rfl⟩ := Option.map_eq_some_iff.mp hother
  exact before

end Memory

namespace Session

variable {s : Session} {request : Request} {earlier : List Write} {w : Write}

/-- What a request writes in the session that it meets, if it writes anything: an assignment that
goes through gives its letter the value of its expression, and a number may be put into the variable
of a letter. -/
def write? (s : Session) : Request → Option Write
  | .evaluate text | .parse text =>
    (assignment? s.precision s.memory text).map fun entry ↦ .put entry.1 entry.2
  | .set name x => (Letter.ofName? name).map fun letter ↦ .put letter x
  | .clear => some .clear
  | _ => none

/-- The writes of requests, each in the session that it meets, the latest in front. -/
def log (s : Session) : List Request → List Write
  | [] => []
  | request :: rest => log (s.step request).1 rest ++ (s.write? request).toList

/-- What is written: the value of the expression by a line that goes through as an assignment, a
number by putting it into the variable of a letter, and the clearing of all. -/
theorem write?_eq_some :
    s.write? request = some w ↔
      (∃ letter expression x, request.line? = some (letter.toChar :: ':' :: expression) ∧
        s.outcome (letter.toChar :: ':' :: expression) = .ok .assignment ∧
        s.outcome expression = .ok (.value x) ∧ w = .put letter x) ∨
      (∃ name letter x, request = .set name x ∧ Letter.ofName? name = some letter ∧
        w = .put letter x) ∨
      request = .clear ∧ w = .clear := by
  cases request with
  | evaluate text | parse text =>
    constructor
    · intro h
      obtain ⟨⟨letter, x⟩, hstored, rfl⟩ := Option.map_eq_some_iff.mp h
      obtain ⟨expression, rfl, value⟩ := assignment?_eq_some.mp hstored
      exact .inl ⟨letter, expression, x, rfl, (evaluateLine_assigns letter value).1, value, rfl⟩
    · rintro (⟨letter, expression, x, hline, -, value, rfl⟩ | ⟨_, _, _, ⟨⟩, -⟩ | ⟨⟨⟩, -⟩)
      cases hline
      exact Option.map_eq_some_iff.mpr
        ⟨(letter, x), assignment?_eq_some.mpr ⟨expression, rfl, value⟩, rfl⟩
  | set name x =>
    simp only [write?, Option.map_eq_some_iff, Request.line?, Request.set.injEq]
    constructor
    · rintro ⟨letter, hname, rfl⟩
      exact .inr (.inl ⟨name, letter, x, ⟨rfl, rfl⟩, hname, rfl⟩)
    · rintro (⟨_, _, _, ⟨⟩, -⟩ | ⟨_, letter, _, ⟨rfl, rfl⟩, hname, rfl⟩ | ⟨⟨⟩, -⟩)
      exact ⟨letter, hname, rfl⟩
  | clear => simp [write?, Request.line?, eq_comm]
  | setPrecision | vars | get | index | letter => simp [write?, Request.line?]

/-- A step carries out the write of its request and changes no variable otherwise. -/
theorem memory_step_write (s : Session) (request : Request) :
    (s.step request).1.memory = (s.write? request).elim s.memory s.memory.write := by
  cases request with
  | evaluate text | parse text =>
    change (evaluateLine s.precision s.memory text).memory = _
    rw [memory_evaluateLine]
    cases hstored : assignment? s.precision s.memory text with
    | none => simp [write?, hstored]
    | some entry => simp [write?, hstored, Memory.write]
  | set name x =>
    cases hname : Letter.ofName? name with
    | none => simp [step, write?, Memory.putName?, hname]
    | some letter => simp [step, write?, Memory.putName?, hname, Memory.write]
  | setPrecision digits =>
    cases hdigits : Precision.ofInt? digits <;> simp [step, write?, hdigits]
  | letter n => cases hcode : Letter.codePoint? n <;> simp [step, write?, hcode]
  | clear | vars | get name | index name => rfl

/-- A step keeps the slots a view of the log. -/
theorem refines_step (h : s.memory.Refines earlier) (request : Request) :
    (s.step request).1.memory.Refines ((s.write? request).toList ++ earlier) := by
  rw [memory_step_write]
  cases s.write? request with
  | none => exact h
  | some w => exact h.write w

/-- A run keeps the slots a view of the log. -/
theorem refines_run (h : s.memory.Refines earlier) (requests : List Request) :
    (s.run requests).1.memory.Refines (s.log requests ++ earlier) := by
  induction requests generalizing s earlier with
  | nil => exact h
  | cons request rest ih =>
    have later := ih (refines_step h request)
    rwa [← List.append_assoc] at later

/-- A letter is read as the log has it. -/
theorem step_get (h : s.memory.Refines earlier) (letter : Letter) :
    (s.step (.get [letter.toChar])).2.1 =
      .read (match (lastWritten? letter earlier).filter fun x ↦ !x.isBelowZero with
        | some x => .ok x
        | none => .error (.unassigned letter)) := by
  rw [← h.value?]
  change Answer.read (s.memory.readName [letter.toChar]) = _
  rw [Memory.readName_letter]
  rfl

/-- What a letter is read as is the value of its variable. -/
theorem step_get_eq_ok {letter : Letter} {x : Decimal} :
    (s.step (.get [letter.toChar])).2.1 = .read (.ok x) ↔ s.memory.value? letter = some x := by
  change Answer.read (s.memory.readName [letter.toChar]) = _ ↔ _
  rw [Memory.readName_letter, Answer.read.injEq, Memory.read_eq_ok]

/-- The variables refine a log of writes. At the end of any run of requests that begins without
values, and so at every point of a run, take the number that was last written to a letter since the
last clearing. If there is one and it is not below zero, then the letter is read as this very
number, whatever the precision has been since; otherwise reading it is refused, as the letter is not
assigned. The listing shows just the letters that can be read, with what they are read as, in
alphabetical order with capitals first. A write is an assignment that goes through, a number put
into the variable of a letter or a clearing. No other requests change a variable: failed ones,
expressions, numbers put into what is no letter, and other precisions do not. -/
theorem run_refines_log (p : Precision) (verbosity : Nat) (requests : List Request) :
    let s := ((fresh p verbosity).run requests).1
    let log := (fresh p verbosity).log requests
    (∀ letter : Letter,
      (∀ x, lastWritten? letter log = some x → x.isBelowZero = false →
        (s.step (.get [letter.toChar])).2.1 = .read (.ok x)) ∧
      ((∀ x, lastWritten? letter log = some x → x.isBelowZero = true) →
        ∃ cause, (s.step (.get [letter.toChar])).2.1 = .read (.error cause) ∧
          cause.message = "Variable " ++ String.ofList [letter.toChar] ++ " not assigned")) ∧
    (∃ vars, (s.step .vars).2.1 = .listing vars ∧
      (vars.Pairwise fun a b ↦ a.1.toChar < b.1.toChar) ∧
      ∀ letter x, (letter, x) ∈ vars ↔ (s.step (.get [letter.toChar])).2.1 = .read (.ok x)) ∧
    ∀ request,
      (∀ w, s.write? request = some w ↔
        (∃ letter expression x, request.line? = some (letter.toChar :: ':' :: expression) ∧
          s.outcome (letter.toChar :: ':' :: expression) = .ok .assignment ∧
          s.outcome expression = .ok (.value x) ∧ w = .put letter x) ∨
        (∃ name letter x, request = .set name x ∧ Letter.ofName? name = some letter ∧
          w = .put letter x) ∨
        request = .clear ∧ w = .clear) ∧
      (s.write? request = none → (s.step request).1.memory = s.memory) := by
  intro s log
  have refines : s.memory.Refines log := by
    have run := refines_run (s := fresh p verbosity) Memory.refines_empty requests
    rwa [List.append_nil] at run
  refine ⟨fun letter ↦ ⟨?_, ?_⟩, ⟨s.memory.assigned, rfl, s.memory.pairwise_assigned, ?_⟩, ?_⟩
  · intro x hx notBelow
    have kept : ((lastWritten? letter log).filter fun x ↦ !x.isBelowZero) = some x := by
      simp [hx, Option.filter, notBelow]
    rw [step_get refines, kept]
  · intro below
    have unset : ((lastWritten? letter log).filter fun x ↦ !x.isBelowZero) = none := by
      simpa [Option.filter_eq_none_iff] using below
    exact ⟨.unassigned letter, by rw [step_get refines, unset], rfl⟩
  · intro letter x
    rw [Memory.mem_assigned, step_get_eq_ok]
  · intro request
    refine ⟨fun w ↦ write?_eq_some, ?_⟩
    intro nothing
    simp [memory_step_write, nothing]

/-- A third keeps its 28 digits when the precision falls to 3 and a division by zero fails. A zero
with a minus sign can be read, and -2 cannot. -/
theorem run_refines_log_third :
    let third : Decimal := .finite ⟨false, 3333333333333333333333333333, -28⟩
    let requests : List Request :=
      [.evaluate ['x', ':', '1', '/', '3'], .setPrecision 3, .parse ['x', ':', '1', '/', '0'],
        .set ['y'] (.finite ⟨true, 0, 0⟩), .set ['z'] (.finite ⟨true, 2, 0⟩),
        .set ['?', '?'] (.finite ⟨false, 7, 0⟩)]
    let s := ((fresh .standard 0).run requests).1
    (fresh .standard 0).log requests =
      [.put ⟨51⟩ (.finite ⟨true, 2, 0⟩), .put ⟨50⟩ (.finite ⟨true, 0, 0⟩), .put ⟨49⟩ third] ∧
    (s.step (.get ['x'])).2.1 = .read (.ok third) ∧
    (s.step (.get ['y'])).2.1 = .read (.ok (.finite ⟨true, 0, 0⟩)) ∧
    ∃ cause, (s.step (.get ['z'])).2.1 = .read (.error cause) ∧
      cause.message = "Variable z not assigned" := by
  intro third requests s
  have log : (fresh .standard 0).log requests =
      [.put ⟨51⟩ (.finite ⟨true, 2, 0⟩), .put ⟨50⟩ (.finite ⟨true, 0, 0⟩), .put ⟨49⟩ third] := by
    decide +kernel
  obtain ⟨reads, -, -⟩ := run_refines_log .standard 0 requests
  rw [log] at reads
  refine ⟨log, (reads ⟨49⟩).1 third rfl rfl, (reads ⟨50⟩).1 _ rfl rfl, ?_⟩
  refine (reads ⟨51⟩).2 ?_
  rintro x ⟨⟩
  rfl

end Session

end FuzzyCalc
