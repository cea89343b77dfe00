import PatternAutomata.Automaton.Basic

/-!
# Numbered tables

The table of an automaton lists the states that can be reached under their numbers. A row holds the
numbers that each character leads to and, in place of the edges that consume nothing, the numbers of
the state's closure. A table says all that matters about the language of the automaton, whatever the
identifiers of its states are.
-/

namespace PatternAutomata

/-- The row of a state in a numbered table. -/
structure NumberedRow where
  /-- The targets of each character, in the order of the edges. -/
  edges : List (Char × List StateNumber)
  /-- The closure of the state. -/
  closure : List StateNumber
deriving DecidableEq, Repr

/-- The targets of a character. -/
def NumberedRow.targets (row : NumberedRow) (c : Char) : List StateNumber :=
  (row.edges.lookup c).getD []

/-- The table of the states of an automaton that can be reached. -/
structure NumberedTable where
  /-- The rows by their numbers, from 1. -/
  rows : Array NumberedRow
  /-- The numbers of the accepting states, ascending. -/
  accepting : List StateNumber
  /-- The characters of the edges, in the order of their first use. -/
  alphabet : List Char
deriving DecidableEq, Repr

namespace NumberedTable

/-- The row with a number. -/
def row? (t : NumberedTable) : StateNumber → Option NumberedRow
  | 0 => none
  | index + 1 => t.rows[index]?

/-- The number of rows. -/
def size (t : NumberedTable) : Nat := t.rows.size

/-- The rows with their numbers. -/
def numbered (t : NumberedTable) : List (StateNumber × NumberedRow) :=
  (t.rows.toList.zipIdx 1).map fun entry => (entry.2, entry.1)

/-- The targets of a character from the state with a number. -/
def targets (t : NumberedTable) (c : Char) (n : StateNumber) : List StateNumber :=
  match t.row? n with
  | none => []
  | some row => row.targets c

/-- The closure of the state with a number. -/
def closure (t : NumberedTable) (n : StateNumber) : List StateNumber :=
  match t.row? n with
  | none => []
  | some row => row.closure

/-- Whether two tables agree when the order of the characters does not count. -/
def agrees (t u : NumberedTable) : Bool :=
  t.rows.size == u.rows.size &&
    (t.rows.toList.zip u.rows.toList).all (fun rows =>
      rows.1.closure == rows.2.closure &&
        Unordered.sameMap (· == ·) rows.1.edges rows.2.edges) &&
    t.accepting == u.accepting && Unordered.sameSet t.alphabet u.alphabet

/-- A list of numbers as it is shown. -/
def showNumbers (ns : List StateNumber) : String :=
  "[" ++ String.intercalate ", " (ns.map toString) ++ "]"

/-- One line of a table: a star if the state accepts, its number, its edges and its closure. -/
def showRow (t : NumberedTable) (entry : StateNumber × NumberedRow) : String :=
  let mark := if t.accepting.contains entry.1 then "*" else " "
  let edges := entry.2.edges.map fun edge =>
    " " ++ edge.1.toString ++ " -> " ++ showNumbers edge.2 ++ ","
  mark ++ toString entry.1 ++ ":" ++ String.join edges ++ " ε* -> " ++
    showNumbers entry.2.closure ++ "\n"

/-- A table as it is shown. -/
def text (t : NumberedTable) : String := String.join (t.numbered.map t.showRow)

end NumberedTable

/-- The numbered table of an automaton. -/
def Automaton.table (nfa : Automaton) : NumberedTable :=
  let order := nfa.order
  let numbering := nfa.numbering
  let numbers := fun (ids : List StateId) => ids.filterMap (numbering[·]?)
  let row := fun id =>
    { edges := (nfa.arena.state id).charEdges.map fun edge => (edge.1, numbers edge.2)
      closure := numbers (nfa.arena.closure id) : NumberedRow }
  { rows := (order.map row).toArray
    accepting := numbers nfa.acceptingStates
    alphabet := nfa.alphabet }

end PatternAutomata
