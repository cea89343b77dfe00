import PatternAutomata.Dfa.Basic

/-!
# Determinization

The states of the deterministic automaton stand for sets of states of a numbered table, written as
labels. From a label, a character leads to the closures of all targets of the label's states, in the
order in which they are met; where there are none, the character has no target. The labels are
discovered by a walk from the closure of the first state, which prefers the characters that come
last in the alphabet, and are numbered from 1 in the order of that walk.
-/

namespace PatternAutomata

namespace NumberedTable

/-- The label that a character leads to. -/
def destination (t : NumberedTable) (label : Label) (c : Char) : Label :=
  distinct ((label.flatMap (t.targets c)).flatMap t.closure)

/-- The characters of the alphabet that lead anywhere from a label, with their targets. -/
def moves (t : NumberedTable) (label : Label) : List (Char × Label) :=
  (t.alphabet.map fun c => (c, t.destination label c)).filter fun move => !move.2.isEmpty

/-- The labels that a label leads to, those of later characters first. -/
def successors (t : NumberedTable) (label : Label) : List Label :=
  ((t.moves label).map Prod.snd).reverse

/-- No fewer than the lists without repetitions of the numbers from 1 to the size of the table: each
can be written with as many digits as the table has rows, filled up with a further digit. -/
def labelBound (t : NumberedTable) : Nat := Nat.pow (t.size + 1) t.size

/-- The labels of the deterministic automaton, in the order of their discovery. -/
def labels (t : NumberedTable) : List Label := preorder t.successors t.labelBound [t.closure 1]

/-- Whether a label holds an accepting state. -/
def labelAccepts (t : NumberedTable) (label : Label) : Bool :=
  label.any t.accepting.contains

/-- The labels with their targets. -/
def subsets (t : NumberedTable) : Subsets :=
  { rows := t.labels.map fun label => (label, t.moves label)
    accepting := t.labels.filter t.labelAccepts }

end NumberedTable

namespace Subsets

/-- The numbers of the labels, by their order. -/
def numbering (s : Subsets) : Std.TreeMap Label StateNumber :=
  .ofList ((s.rows.map Prod.fst).zipIdx 1)

/-- The table of the numbers of the labels. -/
def table (s : Subsets) : DfaTable :=
  let numbering := s.numbering
  let numbered := fun (row : List (Char × Label)) =>
    row.filterMap fun move => (numbering[move.2]?).map fun n => (move.1, n)
  .ofRows ((s.rows.zipIdx 1).map fun row => (row.2, numbered row.1.2))

/-- The numbers of the accepting labels. -/
def acceptingNumbers (s : Subsets) : Std.TreeSet StateNumber :=
  let numbering := s.numbering
  .ofList (s.accepting.filterMap (numbering[·]?))

end Subsets

/-- The deterministic automaton of a numbered table. -/
def Dfa.ofTable (t : NumberedTable) : Dfa :=
  let subsets := t.subsets
  { alphabet := t.alphabet
    table := subsets.table
    accepting := subsets.acceptingNumbers
    subsets := some subsets }

/-- The deterministic automaton of a nondeterministic one. -/
def Automaton.determinize (nfa : Automaton) : Dfa := .ofTable nfa.table

end PatternAutomata
