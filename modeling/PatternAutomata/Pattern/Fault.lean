import PatternAutomata.Text.Position

/-!
# Faults of patterns

What can be wrong with a pattern. A fault that repeats something written earlier knows where the
earlier one stands. A pattern may also be refused although it is well formed, because it uses a
backreference or looks around itself.
-/

namespace PatternAutomata

/-- What is wrong with a pattern. -/
inductive Fault where
  /-- An escape that stands for no character is an item of a class. -/
  | classItem
  /-- The first boundary of a range is above the second. -/
  | classRangeReversed
  /-- A boundary of a range is not a single character. -/
  | classRangeBoundary
  | classUnclosed
  /-- A count does not fit into 32 bits. -/
  | countTooLarge
  | countMissing
  | countUnclosed
  /-- The least count is above the greatest. -/
  | countsReversed
  | hexEmpty
  /-- A hexadecimal number is not the code point of a character. -/
  | hexNoCharacter
  | hexDigit
  | escapeUnfinished
  | escapeUnknown
  | flagNegationDangling
  | flagNegationRepeated (earlier : Span)
  | flagRepeated (earlier : Span)
  | flagUnfinished
  | flagUnknown
  | groupNameRepeated (earlier : Span)
  | groupNameEmpty
  | groupNameCharacter
  | groupNameUnfinished
  | groupUnclosed
  | groupUnopened
  /-- The nesting exceeds the limit. -/
  | nestedTooDeep (limit : Nat)
  | operandMissing
  | boundaryUnclosed
  | boundaryUnknown
  /-- The pattern ends in the opening brace after a word boundary. -/
  | boundaryUnfinished
  | unicodeClassName
deriving DecidableEq, Repr

namespace Fault

/-- The wording of a fault. -/
def text : Fault → String
  | classItem => "invalid escape sequence found in character class"
  | classRangeReversed => "invalid character class range, the start must be <= the end"
  | classRangeBoundary => "invalid range boundary, must be a literal"
  | classUnclosed => "unclosed character class"
  | countTooLarge => "decimal literal invalid"
  | countMissing => "repetition quantifier expects a valid decimal"
  | countUnclosed => "unclosed counted repetition"
  | countsReversed => "invalid repetition count range, the start must be <= the end"
  | hexEmpty => "hexadecimal literal empty"
  | hexNoCharacter => "hexadecimal literal is not a Unicode scalar value"
  | hexDigit => "invalid hexadecimal digit"
  | escapeUnfinished => "incomplete escape sequence, reached end of pattern prematurely"
  | escapeUnknown => "unrecognized escape sequence"
  | flagNegationDangling => "dangling flag negation operator"
  | flagNegationRepeated _ => "flag negation operator repeated"
  | flagRepeated _ => "duplicate flag"
  | flagUnfinished => "expected flag but got end of regex"
  | flagUnknown => "unrecognized flag"
  | groupNameRepeated _ => "duplicate capture group name"
  | groupNameEmpty => "empty capture group name"
  | groupNameCharacter => "invalid capture group character"
  | groupNameUnfinished => "unclosed capture group name"
  | groupUnclosed => "unclosed group"
  | groupUnopened => "unopened group"
  | nestedTooDeep limit =>
    "exceed the maximum number of nested parentheses/brackets (" ++ toString limit ++ ")"
  | operandMissing => "repetition operator missing expression"
  | boundaryUnclosed =>
    "special word boundary assertion is either unclosed or contains an invalid character"
  | boundaryUnknown =>
    "unrecognized special word boundary assertion, valid choices are: start, end, start-half " ++
      "or end-half"
  | boundaryUnfinished =>
    "found either the beginning of a special word boundary or a bounded repetition on a \\b " ++
      "with an opening brace, but no closing brace"
  | unicodeClassName => "invalid Unicode character class"

/-- Where the earlier of two things stands that may not both be there. -/
def earlier? : Fault → Option Span
  | flagNegationRepeated earlier => some earlier
  | flagRepeated earlier => some earlier
  | groupNameRepeated earlier => some earlier
  | _ => none

end Fault

/-- Why a pattern is refused. -/
inductive Refusal where
  /-- The pattern is not well formed. -/
  | fault (fault : Fault) (span : Span)
  /-- The pattern refers back to a group, with this text. -/
  | backreference (text : String)
  /-- The pattern looks around itself, with an opening of this text. -/
  | lookAround (text : String)
deriving DecidableEq, Repr

/-- Refuses a pattern for a fault. -/
def refuse {α : Type} (fault : Fault) (span : Span) : Except Refusal α :=
  .error (.fault fault span)

end PatternAutomata
