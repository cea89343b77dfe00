import PatternAutomata.Text.Blank
import PatternAutomata.Text.Position

/-!
# Cursors

A cursor stands at a place of a pattern and holds the characters that are still to be read. In
verbose mode the characters of a pattern may be spaced out by blanks and by comments, which run from
`#` to the end of the line; `skip` passes over them.

No movement adds characters to the rest, and `next` takes one away unless the cursor is at the end.
These facts bound every loop of the reader.
-/

namespace PatternAutomata

/-- A place in a pattern together with what follows it. -/
structure Cursor where
  /-- The characters still to be read. -/
  rest : List Char
  /-- Where the first of them stands. -/
  pos : Position
  /-- Whether blanks and comments are skipped. -/
  verbose : Bool
deriving DecidableEq, Repr

namespace Cursor

/-- The cursor before the first character of a pattern. -/
def ofString (pattern : String) : Cursor := ⟨pattern.toList, .start, false⟩

/-- The character under the cursor, none at the end. -/
def peek? (c : Cursor) : Option Char := c.rest.head?

/-- The cursor after the next character; the end stays where it is. -/
def next (c : Cursor) : Cursor :=
  match c.rest with
  | [] => c
  | x :: rest => ⟨rest, c.pos.advance x, c.verbose⟩

/-- What remains after blanks and comments, when a comment is being passed or not, and its place. -/
def skipSpace : (inComment : Bool) → List Char → Position → List Char × Position
  | _, [], p => ([], p)
  | true, x :: rest, p => skipSpace (x ≠ '\n') rest (p.advance x)
  | false, x :: rest, p =>
    if isBlank x then skipSpace false rest (p.advance x)
    else if x = '#' then skipSpace true rest (p.advance x)
    else (x :: rest, p)

/-- The cursor after blanks and comments, in verbose mode; itself otherwise. -/
def skip (c : Cursor) : Cursor :=
  if c.verbose then
    let after := skipSpace false c.rest c.pos
    ⟨after.1, after.2, c.verbose⟩
  else c

/-- The cursor after the next character and the space that follows it. -/
def nextSkip (c : Cursor) : Cursor := c.next.skip

/-- The stretch from one cursor to a later one. -/
def spanTo (c d : Cursor) : Span := ⟨c.pos, d.pos⟩

/-- The empty stretch at the cursor. -/
def here (c : Cursor) : Span := .point c.pos

/-- The stretch of the character under the cursor. -/
def current (c : Cursor) : Span := c.spanTo c.next

/-- The text from one cursor to a later one. -/
def textTo (c d : Cursor) : String :=
  String.ofList (c.rest.take (c.rest.length - d.rest.length))

theorem skipSpace_length (inComment : Bool) (rest : List Char) (p : Position) :
    (skipSpace inComment rest p).1.length ≤ rest.length := by
  induction rest generalizing inComment p with
  | nil => simp [skipSpace]
  | cons x rest ih => cases inComment <;> grind [skipSpace]

theorem length_skip (c : Cursor) : c.skip.rest.length ≤ c.rest.length := by
  unfold skip
  split
  · exact skipSpace_length _ _ _
  · exact Nat.le_refl _

theorem length_next_of_cons {c : Cursor} {x : Char} {rest : List Char} (h : c.rest = x :: rest) :
    c.next.rest.length < c.rest.length := by
  simp [next, h]

theorem length_next (c : Cursor) : c.next.rest.length ≤ c.rest.length := by
  unfold next
  split <;> simp_all

theorem length_nextSkip (c : Cursor) : c.nextSkip.rest.length ≤ c.rest.length :=
  Nat.le_trans (length_skip _) (length_next c)

theorem length_nextSkip_of_cons {c : Cursor} {x : Char} {rest : List Char}
    (h : c.rest = x :: rest) : c.nextSkip.rest.length < c.rest.length :=
  Nat.lt_of_le_of_lt (length_skip _) (length_next_of_cons h)

/-- The characters under and after the cursor that satisfy `p`, each with its stretch and passing
over the space after it, and the cursor behind them. -/
def takeSpacedWhile (p : Char → Bool) (c : Cursor) : List (Char × Span) × Cursor :=
  match _h : c.rest with
  | [] => ([], c)
  | x :: _ =>
    if p x then
      let taken := takeSpacedWhile p c.nextSkip
      ((x, c.current) :: taken.1, taken.2)
    else ([], c)
termination_by c.rest.length
decreasing_by exact length_nextSkip_of_cons _h

theorem length_takeSpacedWhile (p : Char → Bool) (c : Cursor) :
    (c.takeSpacedWhile p).2.rest.length ≤ c.rest.length := by
  fun_induction takeSpacedWhile p c with
  | case1 => exact Nat.le_refl _
  | case2 c x _ h _ _ ih => exact Nat.le_trans ih (length_nextSkip c)
  | case3 => exact Nat.le_refl _

/-- The characters under and after the cursor that satisfy `p`, each with its stretch, and the
cursor behind them; space is not passed over. -/
def takeWhile (p : Char → Bool) (c : Cursor) : List (Char × Span) × Cursor :=
  let taken := takeSpacedWhile p { c with verbose := false }
  (taken.1, { taken.2 with verbose := c.verbose })

theorem length_takeWhile (p : Char → Bool) (c : Cursor) :
    (c.takeWhile p).2.rest.length ≤ c.rest.length :=
  length_takeSpacedWhile p { c with verbose := false }

/-- At most `n` characters, each with its stretch and passing over the space after it, and the
cursor behind them. -/
def takeSpaced : Nat → Cursor → List (Char × Span) × Cursor
  | 0, c => ([], c)
  | n + 1, c =>
    match c.rest with
    | [] => ([], c)
    | x :: _ =>
      let taken := takeSpaced n c.nextSkip
      ((x, c.current) :: taken.1, taken.2)

theorem length_takeSpaced (n : Nat) (c : Cursor) :
    (c.takeSpaced n).2.rest.length ≤ c.rest.length := by
  induction n generalizing c with
  | zero => exact Nat.le_refl _
  | succ n ih =>
    unfold takeSpaced
    split
    · exact Nat.le_refl _
    · exact Nat.le_trans (ih _) (length_nextSkip c)

/-- The characters of what a cursor took, as a string. -/
def textOf (taken : List (Char × Span)) : String := String.ofList (taken.map Prod.fst)

end Cursor

end PatternAutomata
