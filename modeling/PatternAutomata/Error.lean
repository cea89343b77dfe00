import PatternAutomata.Expr.Basic
import PatternAutomata.Pattern.Diagnostic
import PatternAutomata.Text.Quoted

/-!
# Errors

Why no automaton is made. A pattern may not be well formed, or it or an expression may use a
construct for which there are no automata. A construction by hand may also mention a state or a
fragment that does not exist.
-/

namespace PatternAutomata

/-- A construct for which there are no automata. -/
inductive Unsupported where
  | flags (text : String)
  | emptyExpression
  | countedRepetition (kind : QuantifierKind)
  | character (kind : CharKind) (value : Char)
  | charClass (text : String)
  | assertion (text : String)
  | backreference (text : String)
  /-- A backreference that the reader of patterns refuses. -/
  | refusedBackreference (text : String)
  /-- Looking around, which the reader of patterns refuses. -/
  | refusedLookAround (text : String)
deriving DecidableEq, Repr

namespace Unsupported

/-- The description of a construct. What the reader of patterns refuses is quoted with escapes, the
text of a node of an expression as it is. -/
def text : Unsupported → String
  | flags text => "flags \"" ++ text ++ "\""
  | emptyExpression => "empty expression"
  | countedRepetition kind => "repetition " ++ kind.text
  | character kind value => kind.text ++ " char " ++ Quoted.ofChar value
  | charClass text => "CharacterClass node \"" ++ text ++ "\""
  | assertion text => "Assertion node \"" ++ text ++ "\""
  | backreference text => "Backreference node \"" ++ text ++ "\""
  | refusedBackreference text => "Backreference node " ++ Quoted.ofString text
  | refusedLookAround text => "Assertion node " ++ Quoted.ofString text

end Unsupported

/-- Why no automaton is made. -/
inductive Error where
  /-- There are no automata for a construct. -/
  | unsupported (construct : Unsupported)
  /-- The pattern is not well formed. -/
  | malformed (diagnostic : Diagnostic)
  /-- There is no state with this identifier. -/
  | missingState (id : Nat)
  /-- There is no fragment with this number. -/
  | missingFragment (number : Nat)
deriving DecidableEq, Repr

namespace Error

/-- The message about an unsupported construct of a given description. -/
def unsupportedMessage (description : String) : String :=
  "unsupported construct: " ++ description

/-- The message about malformed input of a given description. -/
def malformedMessage (description : String) : String :=
  "malformed input: " ++ description

/-- The message of an error. -/
def message : Error → String
  | unsupported construct => unsupportedMessage construct.text
  | malformed diagnostic => malformedMessage diagnostic.text
  | missingState id => "missing state: " ++ toString id
  | missingFragment number => "missing fragment: " ++ toString number

end Error

end PatternAutomata
