import PatternAutomata.Fragment

/-!
# Scripts

A script is a construction written down: a list of steps, each of which makes one fragment. Later
steps refer to the fragments of earlier ones by their numbers, from 0, as often as they like.
-/

namespace PatternAutomata

/-- A step of a script. -/
inductive Step where
  | char (c : Char)
  | epsilon
  | concat (first second : Nat)
  | concatAll (first : Nat) (others : List Nat)
  | union (first second : Nat)
  | unionAll (first : Nat) (others : List Nat)
  | star (operand : Nat)
  | freshStar (operand : Nat)
  | plus (operand : Nat)
  | optional (operand : Nat)
  /-- Names a fragment by its boundaries, which need not be there. -/
  | fragment (f : Fragment)
deriving DecidableEq, Repr

namespace Step

/-- The fragment with a number. -/
def lookup (made : Array Fragment) (number : Nat) : Build Fragment :=
  match made[number]? with
  | some f => return f
  | none => Build.fail (.missingFragment number)

/-- Makes the fragment of a step, where `made` are the fragments of the steps before it. -/
def run (made : Array Fragment) : Step → Build Fragment
  | char c => Fragment.char c
  | epsilon => Fragment.epsilon
  | concat first second => do (← lookup made first).concat (← lookup made second)
  | concatAll first others => do (← lookup made first).concatAll (← others.mapM (lookup made))
  | union first second => do (← lookup made first).union (← lookup made second)
  | unionAll first others => do (← lookup made first).unionAll (← others.mapM (lookup made))
  | star operand => do (← lookup made operand).star
  | freshStar operand => do (← lookup made operand).freshStar
  | plus operand => do (← lookup made operand).plus
  | optional operand => do (← lookup made operand).optional
  | fragment f => return f

end Step

/-- A list of steps. -/
abbrev Script := List Step

/-- Runs the steps of a script behind those that made `made`, and gives all fragments. -/
def Script.run (made : Array Fragment) : Script → Build (Array Fragment)
  | [] => return made
  | step :: steps => do
    let f ← step.run made
    Script.run (made.push f) steps

end PatternAutomata
