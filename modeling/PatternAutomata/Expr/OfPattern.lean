import PatternAutomata.Error
import PatternAutomata.Pattern.Reader

/-!
# Expressions of patterns

The expression that a pattern writes. Flags, wherever they stand in the pattern, are gathered at the
root in the order in which they are opened; alternations of several branches become choices grouped
to the left; what no automaton can be made of keeps its text.
-/

namespace PatternAutomata

namespace Tree

mutual

/-- The expression of a syntax tree, without its flags. -/
def toExpr : Tree → Expr
  | empty _ => .sequence []
  | flags _ _ => .sequence []
  | literal _ spelling value => .char spelling.charKind value
  | dot _ => .char .wildcard '.'
  | assertion _ text => .assertion text
  | classEscape _ text => .charClass text
  | bracketed _ text _ => .charClass text
  | repetition _ quantifier operand => .repetition quantifier operand.toExpr
  | group _ kind body => .group kind.captures body.toExpr
  | alternation _ branches =>
    match branchExprs branches with
    | [] => .sequence []
    | first :: others => others.foldl .choice first
  | concat _ items => .sequence (itemExprs items)

/-- The expressions of the branches of an alternation. -/
def branchExprs : List Tree → List Expr
  | [] => []
  | t :: ts => t.toExpr :: branchExprs ts

/-- The expressions of the items of a concatenation, where directives leave no item. -/
def itemExprs : List Tree → List Expr
  | [] => []
  | flags _ _ :: ts => itemExprs ts
  | t :: ts => t.toExpr :: itemExprs ts

end

mutual

/-- The flags that a tree sets anywhere, in the order of the pattern. -/
def flagText : Tree → String
  | flags _ text => text
  | repetition _ _ operand => operand.flagText
  | group _ (.plain text) body => text ++ body.flagText
  | group _ _ body => body.flagText
  | alternation _ branches => allFlagText branches
  | concat _ items => allFlagText items
  | _ => ""

/-- The flags that some trees set anywhere. -/
def allFlagText : List Tree → String
  | [] => ""
  | t :: ts => t.flagText ++ allFlagText ts

end

end Tree

/-- The error of a pattern that is refused. -/
def Refusal.toError (pattern : String) : Refusal → Error
  | fault kind span => .malformed ⟨pattern, kind, span⟩
  | backreference text => .unsupported (.refusedBackreference text)
  | lookAround text => .unsupported (.refusedLookAround text)

/-- The expression that a pattern writes. -/
def Expr.ofPattern (pattern : String) : Except Error Expr :=
  match Tree.ofPattern pattern with
  | .error refusal => .error (refusal.toError pattern)
  | .ok t => .ok (.root t.flagText t.toExpr)

end PatternAutomata
