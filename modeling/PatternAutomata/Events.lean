import PatternAutomata.Dfa.Determinize
import PatternAutomata.Source

/-!
# Events

What is reported while an automaton is made from its source and determinized.
-/

namespace PatternAutomata

/-- How much detail an event is of. -/
inductive EventLevel where
  | debug
  | trace
deriving DecidableEq, Repr

/-- The name of a level. -/
def EventLevel.text : EventLevel → String
  | debug => "DEBUG"
  | trace => "TRACE"

/-- Something that happens while an automaton is made. -/
inductive Event where
  /-- An expression of a kind was compiled, and the arena has so many states. -/
  | compiled (typeName : String) (states : Nat)
  /-- A nondeterministic automaton was made. -/
  | built (states reachable : Nat)
  /-- Determinization discovers a label. -/
  | expanding (label : Label)
  /-- A deterministic automaton was made. -/
  | determinized (states accepting symbols : Nat)
deriving DecidableEq, Repr

namespace Event

/-- The level of an event. -/
def level : Event → EventLevel
  | expanding _ => .trace
  | _ => .debug

/-- The message of an event. -/
def message : Event → String
  | compiled typeName states =>
    "compiled " ++ typeName ++ " into " ++ toString states ++ " NFA states"
  | built states reachable =>
    "built NFA with " ++ toString states ++ " states, " ++ toString reachable ++ " reachable"
  | expanding label => "expanding combined state \x7b" ++ label.text ++ "\x7d"
  | determinized states accepting symbols =>
    "built DFA with " ++ toString states ++ " states (" ++ toString accepting ++
      " accepting) over " ++ toString symbols ++ " symbols"

end Event

namespace Source

/-- The kind of the expression that is compiled, none for a script. -/
def typeName? : Source → Option String
  | pattern _ => some (Expr.root "" (.sequence [])).typeName
  | expr e => some e.typeName
  | script _ _ => none

/-- The events of making the automaton of a source and determinizing it. -/
def events (s : Source) : Except Error (List Event) := do
  let nfa ← s.automaton
  let table := nfa.table
  let d := Dfa.ofTable table
  let compiled := s.typeName?.toList.map fun name => Event.compiled name nfa.size
  let expanding := table.labels.map Event.expanding
  return compiled ++ [.built nfa.size table.size] ++ expanding ++
    [.determinized d.table.size d.accepting.size d.alphabet.length]

end Source

end PatternAutomata
