import PatternAutomata.Pattern.Tree

/-!
# Nesting

Repetitions, groups, alternations, concatenations and bracketed classes nest, and inside classes so
do unions, operations and classes. A tree may nest only so deep; `tooDeep?` finds the first node, in
the order of the pattern's text, whose nesting exceeds the limit.
-/

namespace PatternAutomata

/-- The greatest nesting of a pattern. -/
def nestLimit : Nat := 250

namespace ClassTree

mutual

/-- The first part of a class, with the whole before its parts, that is nested more than `room`
deep. -/
def tooDeep? (room : Nat) : ClassTree → Option Span
  | item _ => none
  | union span members =>
    match room with
    | 0 => some span
    | room + 1 => anyTooDeep? room members
  | operation span left right =>
    match room with
    | 0 => some span
    | room + 1 =>
      match left.tooDeep? room with
      | some span => some span
      | none => right.tooDeep? room
  | bracket span body =>
    match room with
    | 0 => some span
    | room + 1 => body.tooDeep? room

/-- The first part of some members of a class that is nested more than `room` deep. -/
def anyTooDeep? (room : Nat) : List ClassTree → Option Span
  | [] => none
  | member :: members =>
    match member.tooDeep? room with
    | some span => some span
    | none => anyTooDeep? room members

end

end ClassTree

namespace Tree

mutual

/-- The first node of a tree, with every node before its children, that is nested more than `room`
deep. -/
def tooDeep? (room : Nat) : Tree → Option Span
  | bracketed span _ body =>
    match room with
    | 0 => some span
    | room + 1 => body.tooDeep? room
  | repetition span _ operand =>
    match room with
    | 0 => some span
    | room + 1 => operand.tooDeep? room
  | group span _ body =>
    match room with
    | 0 => some span
    | room + 1 => body.tooDeep? room
  | alternation span branches =>
    match room with
    | 0 => some span
    | room + 1 => anyTooDeep? room branches
  | concat span items =>
    match room with
    | 0 => some span
    | room + 1 => anyTooDeep? room items
  | _ => none

/-- The first node of some trees that is nested more than `room` deep. -/
def anyTooDeep? (room : Nat) : List Tree → Option Span
  | [] => none
  | t :: ts =>
    match t.tooDeep? room with
    | some span => some span
    | none => anyTooDeep? room ts

end

end Tree

end PatternAutomata
