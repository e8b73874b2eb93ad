import FuzzyCalc.Complaint

/-!
# Variables

Every letter has one slot. A slot keeps the very number that was put into it; one that is below zero
counts as no value, so reading it fails as if nothing had been assigned.
-/

namespace FuzzyCalc

/-- What was last put into the slot of each letter. -/
structure Memory where
  /-- The slots in the order of the letters. -/
  slots : Vector (Option Decimal) 52
  deriving DecidableEq, Repr

namespace Memory

/-- No variable has a value. -/
def empty : Memory := ⟨Vector.replicate 52 none⟩

instance : Inhabited Memory := ⟨empty⟩

/-- The value of a variable. -/
def value? (m : Memory) (letter : Letter) : Option Decimal :=
  m.slots[letter.index].filter fun x ↦ !x.isBelowZero

/-- Put a number into a slot. -/
def put (m : Memory) (letter : Letter) (x : Decimal) : Memory :=
  ⟨m.slots.set letter.index x⟩

/-- The variables that have a value, in the order of the letters. -/
def assigned (m : Memory) : List (Letter × Decimal) :=
  Letter.all.filterMap fun letter ↦ (m.value? letter).map (letter, ·)

/-- The value of a variable, or the complaint that it has none. -/
def read (m : Memory) (letter : Letter) : Except Cause Decimal :=
  match m.value? letter with
  | some x => .ok x
  | none => .error (.unassigned letter)

/-- The value of the variable of some name. -/
def readName (m : Memory) (name : List Char) : Except Cause Decimal :=
  match Letter.ofName? name with
  | some letter => m.read letter
  | none => .error (.badName name)

/-- Put a number into the slot of the variable of some name, if there is such a variable. -/
def putName? (m : Memory) (name : List Char) (x : Decimal) : Option Memory :=
  (Letter.ofName? name).map (m.put · x)

/-- A slot holds what was last put into it. -/
theorem slots_put (m : Memory) (a b : Letter) (x : Decimal) :
    (m.put a x).slots.get b.index = if a = b then some x else m.slots.get b.index := by
  rcases a with ⟨a⟩
  rcases b with ⟨b⟩
  change (m.slots.set a x)[b] = if Letter.mk a = ⟨b⟩ then some x else m.slots[b]
  simp [Vector.getElem_set, Fin.ext_iff]

/-- A variable has the value last put into its slot, unless that is below zero. -/
theorem value?_put (m : Memory) (a b : Letter) (x : Decimal) :
    (m.put a x).value? b =
      if a = b then (if x.isBelowZero then none else some x) else m.value? b := by
  change ((m.put a x).slots.get b.index).filter _ = _
  rw [slots_put]
  by_cases h : a = b
  · rw [if_pos h, if_pos h]
    cases hx : x.isBelowZero <;> simp [hx]
  · rw [if_neg h, if_neg h]
    rfl

/-- No variable has a value before anything has been put into a slot. -/
@[simp] theorem value?_empty (letter : Letter) : empty.value? letter = none := by
  simp [value?, empty]

/-- What holds of the values of all variables goes on to hold if it holds of what is put into a
slot. -/
theorem forall_value?_put {P : Decimal → Prop} {m : Memory} {letter : Letter} {x : Decimal}
    (hm : ∀ other y, m.value? other = some y → P y) (hx : P x) :
    ∀ other y, (m.put letter x).value? other = some y → P y := by
  intro other y hy
  rw [value?_put] at hy
  by_cases same : letter = other
  · rw [if_pos same] at hy
    split at hy
    · cases hy
    · cases hy
      exact hx
  · rw [if_neg same] at hy
    exact hm other y hy

end Memory

end FuzzyCalc
