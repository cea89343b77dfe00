import PatternAutomata.Compile
import PatternAutomata.Script

/-!
# Sources

What an automaton can be made from: a pattern, an expression, or a script. A script can also be
shown step by step.
-/

namespace PatternAutomata

/-- What an automaton is made from. -/
inductive Source where
  | pattern (text : String)
  | expr (e : Expr)
  /-- The fragment with a number, or else the last one, of those that a script makes. -/
  | script (steps : Script) (final : Option Nat)
deriving DecidableEq, Repr

/-- The construction of one of the fragments of a script, or else of the last one. -/
def Script.final (steps : Script) (number : Option Nat) : Build Fragment := do
  let made ← Script.run #[] steps
  Step.lookup made (number.getD (made.size - 1))

/-- The automaton of a source. -/
def Source.automaton : Source → Except Error Automaton
  | pattern text => Automaton.ofPattern text
  | expr e => Automaton.ofExpr e
  | script steps final => Automaton.construct (steps.final final)

/-- What a step of a script leaves: the fragment it makes, and the automaton of that fragment with
the whole arena. -/
structure Snapshot where
  fragment : Fragment
  automaton : Automaton
deriving DecidableEq, Repr

/-- What the steps of a script leave, behind those that made `made` in the arena `a`. The first step
that fails, or whose fragment makes no automaton, is the last one. -/
def Script.snapshots (made : Array Fragment) (a : Arena) : Script → List (Except Error Snapshot)
  | [] => []
  | step :: steps =>
    match (step.run made).run a with
    | .error e => [.error e]
    | .ok (f, a) =>
      match Automaton.build f a with
      | .error e => [.error e]
      | .ok nfa => .ok ⟨f, nfa⟩ :: snapshots (made.push f) a steps

/-- What the steps of a script leave. -/
def Script.replay (steps : Script) : List (Except Error Snapshot) := steps.snapshots #[] .empty

end PatternAutomata
