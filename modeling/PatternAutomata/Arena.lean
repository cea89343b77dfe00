import PatternAutomata.Error
import PatternAutomata.State

/-!
# Arenas

An arena holds all states of a construction; a state is known by its place in it. States are added
at the end and never taken away, and a construction edits the states it has: it adds edges and
changes whether a state accepts. Editing a state that is not there fails.
-/

namespace PatternAutomata

/-- The states of a construction. -/
structure Arena where
  states : Array State
deriving DecidableEq, Repr

namespace Arena

/-- The arena without states. -/
def empty : Arena := ⟨#[]⟩

/-- The number of states. -/
def size (a : Arena) : Nat := a.states.size

/-- The state with an identifier; a state that is not there has no edges and does not accept. -/
def state (a : Arena) (id : StateId) : State := a.states[id]?.getD (.new false)

/-- Adds a state at the end. -/
def push (a : Arena) (s : State) : Arena := ⟨a.states.push s⟩

/-- Changes the state with an identifier. -/
def modify (a : Arena) (id : StateId) (change : State → State) : Arena :=
  ⟨a.states.modify id change⟩

@[simp] theorem size_empty : empty.size = 0 := rfl

@[simp] theorem size_push (a : Arena) (s : State) : (a.push s).size = a.size + 1 := by
  simp [size, push]

@[simp] theorem size_modify (a : Arena) (id : StateId) (change : State → State) :
    (a.modify id change).size = a.size := by
  simp [size, modify]

theorem state_push (a : Arena) (s : State) (id : StateId) :
    (a.push s).state id = if id = a.size then s else a.state id := by
  simp only [state, push, size, Array.getElem?_push]
  split <;> simp_all

theorem state_modify (a : Arena) (id : StateId) (change : State → State) (other : StateId) :
    (a.modify id change).state other =
      if id = other ∧ id < a.size then change (a.state id) else a.state other := by
  simp only [state, modify, size, Array.getElem?_modify]
  grind

end Arena

/-- A step of a construction: it edits the arena and gives a result, or fails. -/
abbrev Build := StateT Arena (Except Error)

namespace Build

/-- Adds a state and gives its identifier. -/
def addState (accepting : Bool) : Build StateId := fun a =>
  .ok (a.size, a.push (.new accepting))

/-- Changes a state. -/
def edit (id : StateId) (change : State → State) : Build Unit := fun a =>
  if id < a.size then .ok ((), a.modify id change) else .error (.missingState id)

/-- Adds an edge. -/
def connect (source : StateId) (symbol : Symbol) (target : StateId) : Build Unit :=
  edit source (·.connect symbol target)

/-- Changes whether a state accepts. -/
def setAccepting (id : StateId) (accepting : Bool) : Build Unit :=
  edit id fun s => { s with accepting }

/-- Fails. -/
def fail {α : Type} (e : Error) : Build α := fun _ => .error e

@[simp] theorem run_addState (accepting : Bool) (a : Arena) :
    (addState accepting).run a = .ok (a.size, a.push (.new accepting)) := rfl

theorem run_edit_of_lt {id : StateId} {a : Arena} (h : id < a.size) (change : State → State) :
    (edit id change).run a = .ok ((), a.modify id change) := if_pos h

theorem run_edit_of_le {id : StateId} {a : Arena} (h : a.size ≤ id) (change : State → State) :
    (edit id change).run a = .error (.missingState id) := if_neg (Nat.not_lt.2 h)

@[simp] theorem run_fail {α : Type} (e : Error) (a : Arena) :
    (fail e : Build α).run a = .error e := rfl

end Build

end PatternAutomata
