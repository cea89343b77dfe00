import PatternAutomata.Expr.Basic
import PatternAutomata.Text.Position

/-!
# Syntax trees of patterns

The tree of a pattern keeps everything that was written, each node with its stretch of the pattern.
Inside a bracketed class only the nesting and the stretches are kept, because no automaton is made
of a class.
-/

namespace PatternAutomata

/-- How a literal character was written. -/
inductive Spelling where
  /-- As itself. -/
  | verbatim
  /-- With a backslash that takes a special meaning away. -/
  | escaped
  /-- With a backslash that changes nothing. -/
  | superfluous
  /-- By the letter of a control character. -/
  | control
  /-- By its code point. -/
  | hex
deriving DecidableEq, Repr

/-- The kind of character that a spelling gives. -/
def Spelling.charKind : Spelling → CharKind
  | verbatim => .simple
  | escaped => .simple
  | superfluous => .simple
  | control => .control
  | hex => .hex

/-- The kinds of groups. -/
inductive GroupKind where
  /-- A group that captures under its number. -/
  | numbered
  /-- A group that captures under a name, which stands at `span`. -/
  | named (name : String) (span : Span)
  /-- A group that does not capture and may set flags inside itself. -/
  | plain (flags : String)
deriving DecidableEq, Repr

/-- Whether a group captures. -/
def GroupKind.captures : GroupKind → Bool
  | plain _ => false
  | _ => true

/-- The name under which a group captures, and where the name stands. -/
def GroupKind.name? : GroupKind → Option (String × Span)
  | named name span => some (name, span)
  | _ => none

/-- What stands between the brackets of a class. -/
inductive ClassTree where
  /-- A character, range, escape or named class, or nothing at all. -/
  | item (span : Span)
  /-- Two or more members side by side. -/
  | union (span : Span) (members : List ClassTree)
  /-- An intersection or difference. -/
  | operation (span : Span) (left right : ClassTree)
  /-- A class inside the class. -/
  | bracket (span : Span) (body : ClassTree)
deriving Repr

/-- The stretch of a part of a class. -/
def ClassTree.span : ClassTree → Span
  | item span => span
  | union span _ => span
  | operation span _ _ => span
  | bracket span _ => span

/-- The syntax tree of a pattern. -/
inductive Tree where
  /-- Nothing. -/
  | empty (span : Span)
  /-- A directive that sets flags from there on. -/
  | flags (span : Span) (text : String)
  /-- A single character. -/
  | literal (span : Span) (spelling : Spelling) (value : Char)
  /-- Any character. -/
  | dot (span : Span)
  /-- A condition on the place. -/
  | assertion (span : Span) (text : String)
  /-- A class named by an escape. -/
  | classEscape (span : Span) (text : String)
  /-- A class in brackets. -/
  | bracketed (span : Span) (text : String) (body : ClassTree)
  /-- The operand as often as the quantifier says. -/
  | repetition (span : Span) (quantifier : Quantifier) (operand : Tree)
  /-- The body in parentheses. -/
  | group (span : Span) (kind : GroupKind) (body : Tree)
  /-- One of two or more branches. -/
  | alternation (span : Span) (branches : List Tree)
  /-- Two or more items one after the other. -/
  | concat (span : Span) (items : List Tree)
deriving Repr

/-- The stretch of a tree. -/
def Tree.span : Tree → Span
  | empty span => span
  | flags span _ => span
  | literal span _ _ => span
  | dot span => span
  | assertion span _ => span
  | classEscape span _ => span
  | bracketed span _ _ => span
  | repetition span _ _ => span
  | group span _ _ => span
  | alternation span _ => span
  | concat span _ => span

end PatternAutomata
