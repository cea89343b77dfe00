import PatternAutomata.Arena

/-!
# Fragments

A fragment is a part of an automaton under construction, given by its entry and its exit. The
combinators of this file put fragments together. Each adds a few states and edges to the arena, and
some edit the boundaries of their operands: `star`, `plus` and `optional` loop and skip within the
operand itself, while `freshStar` goes through boundaries of its own.
-/

namespace PatternAutomata

/-- A part of an automaton, from its entry to its exit. -/
structure Fragment where
  entry : StateId
  exit : StateId
deriving DecidableEq, Repr

namespace Fragment

open Build

/-- A new entry and a new exit, with one edge between them. -/
def edge (symbol : Symbol) : Build Fragment := do
  let entry ← addState false
  let exit ← addState true
  connect entry symbol exit
  return ⟨entry, exit⟩

/-- Consumes one character. -/
def char (c : Char) : Build Fragment := edge (.char c)

/-- Consumes nothing. -/
def epsilon : Build Fragment := edge .epsilon

/-- One fragment after the other. -/
def concat (f g : Fragment) : Build Fragment := do
  setAccepting f.exit false
  setAccepting g.exit true
  connect f.exit .epsilon g.entry
  return ⟨f.entry, g.exit⟩

/-- Several fragments, one after the other. -/
def concatAll (f : Fragment) (gs : List Fragment) : Build Fragment := gs.foldlM concat f

/-- One of two fragments, between a new entry and a new exit. -/
def union (f g : Fragment) : Build Fragment := do
  let entry ← addState false
  let exit ← addState true
  connect entry .epsilon f.entry
  connect entry .epsilon g.entry
  setAccepting f.exit false
  setAccepting g.exit false
  connect f.exit .epsilon exit
  connect g.exit .epsilon exit
  return ⟨entry, exit⟩

/-- One of several fragments. -/
def unionAll (f : Fragment) (gs : List Fragment) : Build Fragment := gs.foldlM union f

/-- Any number of times, with a skip and a loop at the boundaries of the fragment. -/
def star (f : Fragment) : Build Fragment := do
  connect f.entry .epsilon f.exit
  connect f.exit .epsilon f.entry
  return f

/-- Any number of times, between a new entry and a new exit. -/
def freshStar (f : Fragment) : Build Fragment := do
  let entry ← addState false
  let exit ← addState true
  connect entry .epsilon f.entry
  connect entry .epsilon exit
  setAccepting f.exit false
  connect f.exit .epsilon exit
  connect exit .epsilon f.entry
  return ⟨entry, exit⟩

/-- At least once, with a loop at the boundaries of the fragment. -/
def plus (f : Fragment) : Build Fragment := do
  connect f.exit .epsilon f.entry
  return f

/-- At most once, with a skip at the boundaries of the fragment. -/
def optional (f : Fragment) : Build Fragment := do
  connect f.entry .epsilon f.exit
  return f

end Fragment

end PatternAutomata
