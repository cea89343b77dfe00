/-!
# Positions and spans

A position tells where in a pattern a character stands: by the number of bytes before it, for
cutting, and by line and column, for readers. A span is the stretch between two positions.
-/

namespace PatternAutomata

/-- A place in a pattern. -/
structure Position where
  /-- The number of bytes before the place, in UTF-8. -/
  offset : Nat
  /-- The line, from 1. -/
  line : Nat
  /-- The column counted in characters, from 1. -/
  column : Nat
deriving DecidableEq, Repr

namespace Position

/-- The place before the first character. -/
def start : Position := ⟨0, 1, 1⟩

/-- The place after the character `c` that stands at `p`. -/
def advance (p : Position) (c : Char) : Position :=
  if c = '\n' then ⟨p.offset + c.utf8Size, p.line + 1, 1⟩
  else ⟨p.offset + c.utf8Size, p.line, p.column + 1⟩

@[simp] theorem offset_advance (p : Position) (c : Char) :
    (p.advance c).offset = p.offset + c.utf8Size := by
  unfold advance; split <;> rfl

end Position

/-- The stretch of a pattern between two places. -/
structure Span where
  start : Position
  stop : Position
deriving DecidableEq, Repr

namespace Span

/-- The empty stretch at a place. -/
def point (p : Position) : Span := ⟨p, p⟩

/-- Whether the stretch starts and ends on one line. -/
def isOneLine (s : Span) : Bool := s.start.line == s.stop.line

end Span

end PatternAutomata
