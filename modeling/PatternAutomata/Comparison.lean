import PatternAutomata.Dfa.Determinize

/-!
# Comparisons

In what two automata and their deterministic automata agree.
-/

namespace PatternAutomata

/-- In what two automata agree. -/
structure Comparison where
  table : Bool
  alphabet : Bool
  dfaTable : Bool
  dfaAccepting : Bool
  /-- The labels and their targets. -/
  labels : Bool
  acceptingLabels : Bool
deriving DecidableEq, Repr

/-- Compares what two deterministic automata remember of their labels. -/
def sameSubsets (same : Subsets → Subsets → Bool) : Option Subsets → Option Subsets → Bool
  | none, none => true
  | some s, some t => same s t
  | _, _ => false

/-- Compares two automata. -/
def Automaton.compare (a b : Automaton) : Comparison :=
  let d := a.determinize
  let e := b.determinize
  { table := a.table.agrees b.table
    alphabet := Unordered.sameSet a.alphabet b.alphabet
    dfaTable := d.table.rows == e.table.rows
    dfaAccepting := d.accepting.toList == e.accepting.toList
    labels := sameSubsets Subsets.sameRows d.subsets e.subsets
    acceptingLabels := sameSubsets Subsets.sameAccepting d.subsets e.subsets }

end PatternAutomata
