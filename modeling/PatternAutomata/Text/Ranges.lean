/-!
# Ranges of code points

Character classes that no simple rule describes are given by tables of inclusive ranges of code
points. This file holds the test for such a table; the tables stand in the modules of the classes.
-/

namespace PatternAutomata

/-- A table of inclusive ranges of code points. -/
abbrev Ranges := List (Nat × Nat)

namespace Ranges

/-- Whether the code point of `c` lies in one of the ranges. -/
def contains (table : Ranges) (c : Char) : Bool :=
  table.any fun range => range.1 ≤ c.toNat && c.toNat ≤ range.2

theorem contains_iff {table : Ranges} {c : Char} :
    table.contains c ↔ ∃ range ∈ table, range.1 ≤ c.toNat ∧ c.toNat ≤ range.2 := by
  simp [contains]

end Ranges

end PatternAutomata
