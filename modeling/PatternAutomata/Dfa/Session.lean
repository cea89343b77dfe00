import PatternAutomata.Dfa.Basic

/-!
# Sessions

A session puts questions to a deterministic automaton and changes it in between.
-/

namespace PatternAutomata

/-- A question to an automaton, or a change of it. -/
inductive Command where
  | accepts (text : String)
  | setTable (table : DfaTable)
  | setAccepting (accepting : Std.TreeSet StateNumber)
  | reload

/-- The answer to a command. -/
inductive Reply where
  | verdict (accepted : Bool)
  /-- The automaton after a change. -/
  | changed (d : Dfa)

namespace Dfa

/-- The automaton after a command, and the answer. -/
def execute (d : Dfa) : Command → Dfa × Reply
  | .accepts text => (d, .verdict (d.accepts text))
  | .setTable table => (d.setTable table, .changed (d.setTable table))
  | .setAccepting accepting => (d.setAccepting accepting, .changed (d.setAccepting accepting))
  | .reload => (d.reload, .changed d.reload)

/-- The answers to some commands, one after the other. -/
def replies (d : Dfa) : List Command → List Reply
  | [] => []
  | command :: commands =>
    let result := d.execute command
    result.2 :: replies result.1 commands

end Dfa

end PatternAutomata
