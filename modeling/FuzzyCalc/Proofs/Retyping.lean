import FuzzyCalc.Proofs.SessionValues
import FuzzyCalc.Proofs.Spelling

/-!
# Listings typed back

What a session lists can be typed into a fresh one: each letter with a colon and the numeral of its
value is an assignment that goes through, at every precision, since a numeral is one lexeme and is
not rounded. The new session has the same letters with the same numerals; only the zeros of a
positive exponent are multiplied out.
-/

namespace FuzzyCalc

open Stack

/-- The number with the zeros of a positive exponent multiplied out, if it is finite. -/
def Decimal.expanded : Decimal → Decimal
  | .finite x => .finite x.expanded
  | x => x

/-- The line that assigns to a letter the number that is written out behind it. -/
def Letter.assignmentLine (letter : Letter) (x : Decimal) : List Char :=
  letter.toChar :: ':' :: x.numeral

namespace Decimal

variable {x : Decimal}

/-- Multiplying out does not change the numeral. -/
theorem numeral_expanded (x : Decimal) : x.expanded.numeral = x.numeral := by
  cases x with
  | finite f => exact f.numeral_expanded
  | infinity negative => rfl
  | nan negative signaling payload => rfl

/-- Multiplying out does not bring a number below zero. -/
theorem Nonneg.expanded (hx : x.Nonneg false) : x.expanded.Nonneg false := by
  obtain ⟨f, rfl, hf⟩ := hx.exists_finite
  intro hn
  rw [FiniteDecimal.negative_expanded] at hn
  exact absurd (hf hn).1 (by decide)

end Decimal

section

variable {p : Precision} {m : Memory} {x : Decimal}

/-- A numeral has the value that it was written for, multiplied out, at every precision. -/
theorem evaluateLine_numeral (hx : x.Nonneg false) :
    (evaluateLine p m x.numeral).result = .ok (.value x.expanded) := by
  have plain : (Token.number x).Plain := hx
  have whole : Token.spellAll [.number x] = x.numeral := List.append_nil _
  have cut : Lexeme.split x.numeral = [(Token.number x).lexeme] := by
    have alternates : Alternates true [.number x] := ⟨rfl, trivial⟩
    rw [← whole]
    exact split_spellAll alternates (by simpa using plain)
  rw [evaluateLine_result_eq_value, cut, pushLexemes?_singleton, pushLexeme?,
    Token.toToken_lexeme plain]
  obtain ⟨f, rfl, -⟩ := hx.exists_finite
  rfl

/-- An assignment of a numeral goes through and stores that number, multiplied out. -/
theorem evaluateLine_assignmentLine (letter : Letter) (hx : x.Nonneg false) :
    (evaluateLine p m (letter.assignmentLine x)).result = .ok .assignment ∧
      (evaluateLine p m (letter.assignmentLine x)).memory = m.put letter x.expanded :=
  evaluateLine_assigns letter (evaluateLine_numeral hx)

end

namespace Memory

variable {m : Memory}

/-- Put the numbers of a listing, multiplied out, into the slots of their letters. -/
def putAll (m : Memory) (entries : List (Letter × Decimal)) : Memory :=
  entries.foldl (fun m entry ↦ m.put entry.1 entry.2.expanded) m

/-- Only numbers not below zero are listed if there are no others in the slots. -/
theorem Nonneg.of_mem_assigned {s : Bool} (hm : m.Nonneg s) {entry : Letter × Decimal}
    (h : entry ∈ m.assigned) : entry.2.Nonneg s := by
  obtain ⟨letter, -, hletter⟩ := List.mem_filterMap.mp h
  obtain ⟨x, hx, rfl⟩ := Option.map_eq_some_iff.mp hletter
  exact hm letter x hx

/-- The part of a listing for some letters gives back the values of these letters, multiplied out,
and leaves the others alone. -/
theorem value?_putAll (hm : m.Nonneg false) (base : Memory) (letters : List Letter)
    (letter : Letter) :
    (base.putAll (letters.filterMap fun l ↦ (m.value? l).map (l, ·))).value? letter =
      if letter ∈ letters then ((m.value? letter).map Decimal.expanded).or (base.value? letter)
      else base.value? letter := by
  induction letters generalizing base with
  | nil => rfl
  | cons first rest ih =>
    cases hfirst : m.value? first with
    | none =>
      rw [List.filterMap_cons_none (by rw [hfirst]; rfl), ih]
      by_cases heq : letter = first
      · subst heq
        simp [hfirst]
      · simp [heq]
    | some x =>
      have kept := (hm first x hfirst).expanded.isBelowZero
      rw [List.filterMap_cons_some (by rw [hfirst]; rfl)]
      change (putAll (base.put first x.expanded) _).value? letter = _
      rw [ih, value?_put, kept]
      by_cases heq : first = letter
      · subst heq
        simp [hfirst]
      · simp [heq, Ne.symm heq]

/-- A listing put into empty slots is listed again with its numbers multiplied out. -/
theorem assigned_putAll (hm : m.Nonneg false) :
    (empty.putAll m.assigned).assigned =
      m.assigned.map fun entry ↦ (entry.1, entry.2.expanded) := by
  have values (letter : Letter) :
      (empty.putAll m.assigned).value? letter = (m.value? letter).map Decimal.expanded := by
    rw [assigned, value?_putAll hm, if_pos letter.mem_all, value?_empty, Option.or_none]
  unfold assigned at values ⊢
  rw [List.map_filterMap]
  refine List.filterMap_congr fun letter _ ↦ ?_
  rw [values, Option.map_map, Option.map_map]
  rfl

end Memory

namespace Session

variable {s : Session}

/-- Type in a listing, line by line. -/
def retype (s : Session) (entries : List (Letter × Decimal)) :
    Session × List (Answer × List TraceEntry) :=
  s.run (entries.map fun entry ↦ .evaluate (entry.1.assignmentLine entry.2))

/-- Every line of a listing goes through, and its number ends up in the slot of its letter. -/
theorem retype_spec {entries : List (Letter × Decimal)}
    (h : ∀ entry ∈ entries, entry.2.Nonneg false) :
    (s.retype entries).1.memory = s.memory.putAll entries ∧
      (s.retype entries).2.map Prod.fst = entries.map fun _ ↦ .outcome (.ok .assignment) := by
  induction entries generalizing s with
  | nil => exact ⟨rfl, rfl⟩
  | cons entry rest ih =>
    obtain ⟨hentry, hrest⟩ := List.forall_mem_cons.mp h
    obtain ⟨assigned, stored⟩ :=
      evaluateLine_assignmentLine (p := s.precision) (m := s.memory) entry.1 hentry
    obtain ⟨memory, answers⟩ :=
      ih (s := (s.step (.evaluate (entry.1.assignmentLine entry.2))).1) hrest
    constructor
    · change (retype (s.step (.evaluate (entry.1.assignmentLine entry.2))).1 rest).1.memory = _
      rw [memory]
      change (evaluateLine s.precision s.memory _).memory.putAll rest = _
      rw [stored]
      rfl
    · change Answer.outcome (evaluateLine s.precision s.memory _).result ::
        (retype (s.step (.evaluate (entry.1.assignmentLine entry.2))).1 rest).2.map Prod.fst = _
      rw [assigned, answers]
      rfl

/-- What a session lists can be typed back in. In a session that begins without values, and whose
caller puts only finite numbers without a minus sign into variables, take the letters and numbers
that are listed at the end, and type each of them into a fresh session of any precision, as a
letter, a colon and a numeral. Every such line is an assignment that goes through, and afterwards
the same letters are listed in the same order, with the same numerals and numbers of the same value,
which are the very same numbers where no exponent is positive. -/
theorem run_retyped (p : Precision) (verbosity : Nat) (requests : List Request)
    (hr : ∀ request ∈ requests, request.Unsigned) (q : Precision) (verbosity' : Nat) :
    let listed := ((fresh p verbosity).run requests).1.memory.assigned
    let again := (fresh q verbosity').retype listed
    again.2.map Prod.fst = listed.map (fun _ ↦ .outcome (.ok .assignment)) ∧
    List.Forall₂ (fun entry other ↦ other.1 = entry.1 ∧ other.2.numeral = entry.2.numeral ∧
        ∃ x y : FiniteDecimal, entry.2 = .finite x ∧ other.2 = .finite y ∧ y.toRat = x.toRat ∧
          (x.exponent ≤ 0 → y = x))
      listed again.1.memory.assigned := by
  intro listed again
  have start : (fresh p verbosity).memory.Unsigned := Memory.unsigned_empty
  have nonneg := (sound_run start hr).1.nonneg
  have entries : ∀ entry ∈ listed, entry.2.Nonneg false := fun _ ↦ nonneg.of_mem_assigned
  obtain ⟨memory, answers⟩ := retype_spec (s := fresh q verbosity') entries
  refine ⟨answers, ?_⟩
  change List.Forall₂ _ listed ((fresh q verbosity').retype listed).1.memory.assigned
  rw [memory]
  change List.Forall₂ _ listed (Memory.empty.putAll listed).assigned
  rw [Memory.assigned_putAll nonneg, List.forall₂_map_right_iff, List.forall₂_same]
  intro entry hentry
  obtain ⟨x, hx, -⟩ := (entries entry hentry).exists_finite
  refine ⟨rfl, entry.2.numeral_expanded, x, x.expanded, hx, ?_, x.toRat_expanded, ?_⟩
  · rw [hx]
    rfl
  · exact FiniteDecimal.expanded_of_nonpos

/-- One third and a hundred, computed at 28 digits, are typed back in at a precision of one digit:
no digit of the third is lost, and the hundred comes back without an exponent. -/
theorem run_retyped_third :
    let requests : List Request :=
      [.evaluate ['x', ':', '1', '/', '3'], .set ['A'] (.finite ⟨false, 1, 2⟩)]
    let listed := ((fresh .standard 0).run requests).1.memory.assigned
    let again := (fresh ⟨1, by decide⟩ 0).retype listed
    (∀ request ∈ requests, request.Unsigned) ∧
      again.2.map Prod.fst = listed.map (fun _ ↦ .outcome (.ok .assignment)) ∧
      again.1.memory.assigned = [(⟨0⟩, .finite ⟨false, 100, 0⟩),
        (⟨49⟩, .finite ⟨false, 3333333333333333333333333333, -28⟩)] := by
  intro requests listed again
  have admitted : ∀ request ∈ requests, request.Unsigned := by
    refine List.forall_mem_cons.mpr ⟨trivial, List.forall_mem_cons.mpr ⟨?_, nofun⟩⟩
    exact FiniteDecimal.nonneg_of_negative rfl
  obtain ⟨answers, -⟩ := run_retyped .standard 0 requests admitted ⟨1, by decide⟩ 0
  exact ⟨admitted, answers, by decide +kernel⟩

end Session

end FuzzyCalc
