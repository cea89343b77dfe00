import PatternAutomata.Automaton.Basic

/-!
# Acceptance by search

An automaton accepts a text when some path from its entry to an accepting state consumes the whole
text. The search walks through the spots that can be reached, a spot being a state together with a
place in the text, and so visits each spot once. Places are counted in bytes.
-/

namespace PatternAutomata

/-- A state of an automaton, reached at a place of a text. -/
structure Spot where
  state : StateId
  /-- The number of bytes of the text before the place. -/
  offset : Nat
deriving DecidableEq, Repr

namespace Spot

instance : Ord Spot := ⟨compareLex (compareOn offset) (compareOn state)⟩

instance : Std.TransOrd Spot :=
  inferInstanceAs (Std.TransCmp (compareLex (compareOn offset) (compareOn state)))

instance : Std.LawfulEqOrd Spot where
  eq_of_compare {a b} h := by
    have h : (compare a.offset b.offset).then (compare a.state b.state) = .eq := h
    simp only [Ordering.then_eq_eq, Std.LawfulEqOrd.compare_eq_iff_eq] at h
    cases a
    cases b
    simp_all

/-- The character of a text behind a place, none at the end. -/
def charAt? (text : String) (offset : Nat) : Option Char := String.Pos.Raw.get? text ⟨offset⟩

/-- The spots that one edge leads to: by edges that consume the next character, and by edges that
consume nothing. -/
def next (a : Arena) (text : String) (s : Spot) : List Spot :=
  let here := (a.state s.state).targets .epsilon
  let ahead :=
    match charAt? text s.offset with
    | none => []
    | some c =>
      ((a.state s.state).targets (.char c)).map fun target => ⟨target, s.offset + c.utf8Size⟩
  ahead ++ here.map fun target => ⟨target, s.offset⟩

/-- Whether the text has been consumed and is accepted. -/
def accepts (a : Arena) (text : String) (s : Spot) : Bool :=
  (charAt? text s.offset).isNone && (a.state s.state).accepting

end Spot

namespace Automaton

/-- The spots that can be reached in a text, in the order of a walk along the edges. -/
def spots (nfa : Automaton) (text : String) : List Spot :=
  preorder (Spot.next nfa.arena text) (nfa.size * (text.utf8ByteSize + 1)) [⟨nfa.entry, 0⟩]

/-- Whether the automaton accepts the whole of a text. -/
def accepts (nfa : Automaton) (text : String) : Bool :=
  (nfa.spots text).any (Spot.accepts nfa.arena text)

end Automaton

end PatternAutomata
