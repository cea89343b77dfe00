import Std.Data.TreeMap
import PatternAutomata.Fragment
import PatternAutomata.Walk

/-!
# Automata

An automaton is an arena together with an entry and an exit. From its edges follow the closure of
each state, which lists the states that can be reached without consuming anything, and the order in
which the states are discovered from the entry, by which they are numbered from 1.

`Automaton.build` makes the automaton of a fragment. It fails when a closure or the discovery meets
an identifier that is not that of a state.
-/

namespace PatternAutomata

/-- The number of a state in a table, from 1. -/
abbrev StateNumber := Nat

namespace Arena

/-- The states that can be reached from a state without consuming anything, itself first, in the
order of a walk along the edges. -/
def closure (a : Arena) (id : StateId) : List StateId :=
  preorder (fun id => (a.state id).targets .epsilon) (a.size + 1) [id]

/-- The states that can be reached from a state, itself first, in the order of a walk along the
edges. -/
def discovery (a : Arena) (id : StateId) : List StateId :=
  preorder (fun id => (a.state id).successors) (a.size + 1) [id]

/-- The identifiers of the states. -/
def ids (a : Arena) : List StateId := List.range a.size

/-- The first of some identifiers that is not that of a state. -/
def missing? (a : Arena) (ids : List StateId) : Option StateId := ids.find? (a.size ≤ ·)

end Arena

/-- A nondeterministic finite automaton. -/
structure Automaton where
  arena : Arena
  entry : StateId
  exit : StateId
deriving DecidableEq, Repr

namespace Automaton

/-- The automaton of a fragment. -/
def build (f : Fragment) (a : Arena) : Except Error Automaton :=
  match (a.ids.findSome? fun id => a.missing? (a.closure id)).or
      (a.missing? (a.discovery f.entry)) with
  | some id => .error (.missingState id)
  | none => .ok ⟨a, f.entry, f.exit⟩

/-- The automaton of the fragment that a construction makes. -/
def construct (make : Build Fragment) : Except Error Automaton := do
  let (f, a) ← make.run .empty
  build f a

/-- The number of states, those that cannot be reached included. -/
def size (nfa : Automaton) : Nat := nfa.arena.size

/-- The states that can be reached, in the order of their discovery from the entry. -/
def order (nfa : Automaton) : List StateId := nfa.arena.discovery nfa.entry

/-- The numbers of the states that can be reached. -/
def numbering (nfa : Automaton) : Std.TreeMap StateId StateNumber :=
  .ofList (nfa.order.zipIdx 1)

/-- The number of a state, none if it cannot be reached. -/
def number? (nfa : Automaton) (id : StateId) : Option StateNumber := nfa.numbering[id]?

/-- The accepting states that can be reached, in the order of discovery. -/
def acceptingStates (nfa : Automaton) : List StateId :=
  nfa.order.filter fun id => (nfa.arena.state id).accepting

/-- The characters on the edges of the states that can be reached, in the order of discovery. -/
def alphabet (nfa : Automaton) : List Char :=
  distinct (nfa.order.flatMap fun id => (nfa.arena.state id).charEdges.map Prod.fst)

end Automaton

end PatternAutomata
