import PatternAutomata.Pattern.Fault

/-!
# Diagnostics

A diagnostic shows a pattern with carets under the stretches that a fault concerns. A pattern of one
line is indented; the lines of a longer one are numbered and stand between two rulers. A stretch
that runs over more than one line gets no carets and is described in words.
-/

namespace PatternAutomata

/-- A fault of a pattern and where it stands. -/
structure Diagnostic where
  pattern : String
  fault : Fault
  span : Span
deriving DecidableEq, Repr

namespace Diagnostic

/-- A line without the carriage return at its end. -/
def dropReturn (line : String) : String :=
  let cs := line.toList
  if cs.getLast? = some '\r' then String.ofList cs.dropLast else line

/-- The lines of a text. A line feed ends a line, together with a carriage return before it; what
follows the last one is a line only if it is not empty. -/
def lines (text : String) : List String :=
  let pieces := text.splitOn "\n"
  let last := pieces.getLast?.getD ""
  pieces.dropLast.map dropReturn ++ if last.isEmpty then [] else [last]

/-- `n` times the character `c`. -/
def row (n : Nat) (c : Char) : String := String.ofList (List.replicate n c)

/-- Whether one stretch comes before another. -/
def comesBefore (s t : Span) : Bool :=
  s.start.offset < t.start.offset ||
    (s.start.offset == t.start.offset && s.stop.offset ≤ t.stop.offset)

/-- The stretches that a diagnostic points to, in the order of the pattern. -/
def spans (d : Diagnostic) : List Span :=
  (d.span :: d.fault.earlier?.toList).mergeSort comesBefore

/-- The width of the numbers of lines, if the pattern has a line feed. The empty line after a line
feed at the end is counted. -/
def numberWidth? (d : Diagnostic) : Option Nat :=
  if d.pattern.contains '\n' then
    let count := (lines d.pattern).length + if d.pattern.endsWith "\n" then 1 else 0
    some (toString count).length
  else none

/-- What stands before the line with a number, where the width of numbers is given. -/
def margin (width? : Option Nat) (number : Nat) : String :=
  match width? with
  | none => row 4 ' '
  | some width => row (width - (toString number).length) ' ' ++ toString number ++ ": "

/-- What stands before the carets under a line. -/
def indent : Option Nat → String
  | none => row 4 ' '
  | some width => row (width + 2) ' '

/-- The carets under one line for stretches of that line, when `column` characters of the row have
been written. -/
def carets (column : Nat) : List Span → String
  | [] => ""
  | s :: more =>
    let gap := s.start.column - 1 - column
    let width := max 1 (s.stop.column - s.start.column)
    row gap ' ' ++ row width '^' ++ carets (column + gap + width) more

/-- A line with its number, and the row of carets under it if any of the stretches is on it. -/
def showLine (width? : Option Nat) (spans : List Span) (line : String × Nat) : String :=
  let marked := spans.filter fun s => s.isOneLine && s.start.line == line.2
  margin width? line.2 ++ line.1 ++ "\n" ++
    if marked.isEmpty then "" else indent width? ++ carets 0 marked ++ "\n"

/-- The description of a stretch that runs over more than one line. -/
def describe (s : Span) : String :=
  "on line " ++ toString s.start.line ++ " (column " ++ toString s.start.column ++
    ") through line " ++ toString s.stop.line ++ " (column " ++ toString (s.stop.column - 1) ++
    ")\n"

/-- The whole diagnostic. -/
def text (d : Diagnostic) : String :=
  let width? := d.numberWidth?
  let shown := ((lines d.pattern).zipIdx 1).map (showLine width? d.spans)
  let ruler := if width?.isSome then row 79 '~' ++ "\n" else ""
  let described := (d.spans.filter fun s => !s.isOneLine).map describe
  "regex parse error:\n" ++ ruler ++ String.join shown ++ ruler ++ String.join described ++
    "error: " ++ d.fault.text

end Diagnostic

end PatternAutomata
