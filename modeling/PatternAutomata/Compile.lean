import PatternAutomata.Automaton.Basic
import PatternAutomata.Expr.OfPattern

/-!
# Compilation

Expressions are compiled by putting together the fragments of their parts. The parts of a sequence
are all compiled before any of them are joined. A construct for which there are no automata refuses
the whole expression: flags before anything else of the expression under them, and a counted
repetition only after its operand.
-/

namespace PatternAutomata

namespace Expr

open Build

mutual

/-- The construction of an expression. -/
def compile : Expr → Build Fragment
  | root flags body =>
    if flags.isEmpty then body.compile else fail (.unsupported (.flags flags))
  | sequence items => do
    match ← compileAll items with
    | [] => fail (.unsupported .emptyExpression)
    | first :: others => first.concatAll others
  | choice left right => do
    let f ← left.compile
    let g ← right.compile
    f.union g
  | repetition quantifier operand => do
    let f ← operand.compile
    match quantifier.kind with
    | .zeroOrMore => f.star
    | .oneOrMore => f.plus
    | .zeroOrOne => f.optional
    | .range min max => fail (.unsupported (.countedRepetition (.range min max)))
  | char kind value =>
    match kind with
    | .simple => Fragment.char value
    | kind => fail (.unsupported (.character kind value))
  | group _ body => body.compile
  | charClass text => fail (.unsupported (.charClass text))
  | assertion text => fail (.unsupported (.assertion text))
  | backreference text => fail (.unsupported (.backreference text))

/-- The constructions of some expressions, from left to right. -/
def compileAll : List Expr → Build (List Fragment)
  | [] => return []
  | e :: es => do
    let f ← e.compile
    let fs ← compileAll es
    return f :: fs

end

end Expr

namespace Automaton

/-- The automaton of an expression. -/
def ofExpr (e : Expr) : Except Error Automaton := construct e.compile

/-- The automaton of a pattern. -/
def ofPattern (pattern : String) : Except Error Automaton := do
  let e ← Expr.ofPattern pattern
  ofExpr e

end Automaton

end PatternAutomata
