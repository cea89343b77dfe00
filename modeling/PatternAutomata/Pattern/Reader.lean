import PatternAutomata.Pattern.Bracket
import PatternAutomata.Pattern.Count
import PatternAutomata.Pattern.Depth
import PatternAutomata.Pattern.Opening

/-!
# Reading patterns

A pattern is read from left to right with a stack of the groups that are still open. The reader
holds the branches and items of the innermost group; a quantifier takes the last item, a bar ends a
branch, and a closing parenthesis makes the group an item of the group around it.

Every step moves the cursor on, so reading ends; the main definition is `Tree.ofPattern`.
-/

namespace PatternAutomata

/-- What has been read of the inside of a group: its branches. -/
structure Level where
  /-- Where the first branch begins. -/
  begun : Position
  /-- The branches that ended, the latest first. -/
  branches : List Tree
  /-- Where the present branch begins. -/
  branchBegun : Position
  /-- The items of the present branch, the latest first. -/
  items : List Tree
deriving Repr

namespace Level

/-- A group of which nothing has been read. -/
def start (begun : Position) : Level := ⟨begun, [], begun, []⟩

/-- Adds an item to the present branch. -/
def push (k : Level) (item : Tree) : Level := { k with items := item :: k.items }

/-- The present branch, which ends at `stop`. -/
def branch (k : Level) (stop : Position) : Tree :=
  match k.items with
  | [] => .empty ⟨k.branchBegun, stop⟩
  | [item] => item
  | items => .concat ⟨k.branchBegun, stop⟩ items.reverse

/-- Ends the present branch at `stop` and begins another one at `begun`. -/
def nextBranch (k : Level) (stop begun : Position) : Level :=
  ⟨k.begun, k.branch stop :: k.branches, begun, []⟩

/-- The inside of the group, which ends at `stop`. -/
def body (k : Level) (stop : Position) : Tree :=
  match k.branches with
  | [] => k.branch stop
  | branches => .alternation ⟨k.begun, stop⟩ (k.branch stop :: branches).reverse

/-- The last item, if it can be repeated, and the items before it. -/
def operand? (k : Level) : Option (Tree × List Tree) :=
  match k.items with
  | [] => none
  | .empty _ :: _ => none
  | .flags _ _ :: _ => none
  | item :: items => some (item, items)

end Level

/-- A group that is still open. -/
structure OpenGroup where
  /-- What has been read of the group around it. -/
  around : Level
  /-- The stretch of its opening parenthesis. -/
  opening : Span
  kind : GroupKind
  /-- Whether blanks and comments are skipped around it. -/
  verbose : Bool
deriving Repr

/-- The reader of a pattern. -/
structure Reader where
  cursor : Cursor
  /-- What has been read of the innermost group, or of the pattern outside all groups. -/
  level : Level
  /-- The open groups, the innermost first. -/
  groups : List OpenGroup
  /-- The names of groups, with their stretches. -/
  names : List (String × Span)
deriving Repr

namespace Reader

open Cursor

/-- The reader of a pattern before its first character. -/
def ofString (pattern : String) : Reader :=
  ⟨.ofString pattern, .start .start, [], []⟩

/-- Adds an item that ends before the cursor `d`. -/
def push (r : Reader) (item : Tree) (d : Cursor) : Reader :=
  { r with cursor := d, level := r.level.push item }

/-- Reads an opening parenthesis. -/
def openGroup (r : Reader) : Except Refusal Reader := do
  let (opening, d) ← r.cursor.readOpening r.names
  let e : Cursor := { d with verbose := opening.verbose?.getD r.cursor.verbose }
  match opening with
  | .directive flags => return r.push (.flags (r.cursor.spanTo e) flags) e
  | .group kind =>
    let group : OpenGroup := ⟨r.level, r.cursor.current, kind, r.cursor.verbose⟩
    return ⟨e, .start e.pos, group :: r.groups, kind.name?.toList ++ r.names⟩

/-- Reads a closing parenthesis. -/
def closeGroup (r : Reader) : Except Refusal Reader :=
  match r.groups with
  | [] => refuse .groupUnopened r.cursor.current
  | g :: groups =>
    let d : Cursor := { r.cursor.next with verbose := g.verbose }
    let group := Tree.group ⟨g.opening.start, d.pos⟩ g.kind (r.level.body r.cursor.pos)
    .ok { r with cursor := d, level := g.around.push group, groups }

/-- Reads a bar. -/
def nextBranch (r : Reader) : Reader :=
  let d := r.cursor.next
  { r with cursor := d, level := r.level.nextBranch r.cursor.pos d.pos }

/-- Replaces the items of the present branch by `items` and the repetition of `operand`, which ends
before the cursor `d`. -/
def repeated (r : Reader) (operand : Tree) (items : List Tree) (q : Quantifier) (d : Cursor) :
    Reader :=
  let repetition := Tree.repetition ⟨operand.span.start, d.pos⟩ q operand
  { r with cursor := d, level := { r.level with items := repetition :: items } }

/-- Reads a quantifier of one character. -/
def repeatUncounted (kind : QuantifierKind) (r : Reader) : Except Refusal Reader :=
  match r.level.operand? with
  | none => refuse .operandMissing r.cursor.here
  | some (operand, items) =>
    let read := r.cursor.readUncounted kind
    .ok (r.repeated operand items read.1 read.2)

/-- Reads a counted quantifier. -/
def repeatCounted (r : Reader) : Except Refusal Reader := do
  match r.level.operand? with
  | none => refuse .operandMissing r.cursor.here
  | some (operand, items) =>
    let (q, d) ← r.cursor.readCounted
    return r.repeated operand items q d

/-- Reads an item with the reader `read`. -/
def pushRead (r : Reader) (read : Cursor → Except Refusal (Tree × Cursor)) :
    Except Refusal Reader := do
  let (t, d) ← read r.cursor
  return r.push t d

/-- Reads what the character `x` under the cursor begins. -/
def step (r : Reader) (x : Char) : Except Refusal Reader :=
  match x with
  | '(' => r.openGroup
  | ')' => r.closeGroup
  | '|' => .ok r.nextBranch
  | '[' => r.pushRead readClass
  | '?' => r.repeatUncounted .zeroOrOne
  | '*' => r.repeatUncounted .zeroOrMore
  | '+' => r.repeatUncounted .oneOrMore
  | '\x7b' => r.repeatCounted
  | '\\' => r.pushRead readEscape
  | '.' => .ok (r.push (.dot r.cursor.current) r.cursor.next)
  | '^' => .ok (r.push (.assertion r.cursor.current "^") r.cursor.next)
  | '$' => .ok (r.push (.assertion r.cursor.current "$") r.cursor.next)
  | x => .ok (r.push (.literal r.cursor.current .verbatim x) r.cursor.next)

/-- The tree at the end of the pattern, where no group may be open. -/
def finish (r : Reader) : Except Refusal Tree :=
  match r.groups with
  | [] => .ok (r.level.body r.cursor.pos)
  | g :: _ => refuse .groupUnclosed g.opening

theorem length_of_openGroup {r s : Reader} (h : r.openGroup = .ok s) :
    s.cursor.rest.length ≤ r.cursor.nextSkip.rest.length := by
  simp only [openGroup, push, bind, Except.bind, pure, Except.pure] at h
  grind [→ length_of_readOpening]

theorem length_of_closeGroup {r s : Reader} (h : r.closeGroup = .ok s) :
    s.cursor.rest.length ≤ r.cursor.next.rest.length := by
  unfold closeGroup refuse at h
  grind

theorem length_of_repeatUncounted {kind : QuantifierKind} {r s : Reader}
    (h : r.repeatUncounted kind = .ok s) :
    s.cursor.rest.length ≤ r.cursor.next.rest.length := by
  unfold repeatUncounted repeated refuse at h
  grind [length_readUncounted]

theorem length_of_repeatCounted {r s : Reader} (h : r.repeatCounted = .ok s) :
    s.cursor.rest.length ≤ r.cursor.nextSkip.rest.length := by
  simp only [repeatCounted, repeated, refuse, bind, Except.bind, pure, Except.pure] at h
  grind [→ length_of_readCounted]

theorem cursor_of_pushRead {read : Cursor → Except Refusal (Tree × Cursor)} {r s : Reader}
    (h : r.pushRead read = .ok s) : ∃ t, read r.cursor = .ok (t, s.cursor) := by
  simp only [pushRead, push, bind, Except.bind, pure, Except.pure] at h
  grind

/-- A step moves the cursor on. -/
theorem length_of_step {r s : Reader} {x : Char} {rest : List Char}
    (hr : r.cursor.rest = x :: rest) (h : r.step x = .ok s) :
    s.cursor.rest.length < r.cursor.rest.length := by
  have hn := length_next_of_cons hr
  have hs := length_nextSkip_of_cons hr
  unfold step at h
  split at h
  · exact Nat.lt_of_le_of_lt (length_of_openGroup h) hs
  · exact Nat.lt_of_le_of_lt (length_of_closeGroup h) hn
  · cases h; exact hn
  · obtain ⟨t, ht⟩ := cursor_of_pushRead h
    exact Nat.lt_of_le_of_lt (length_of_readClass ht) hs
  · exact Nat.lt_of_le_of_lt (length_of_repeatUncounted h) hn
  · exact Nat.lt_of_le_of_lt (length_of_repeatUncounted h) hn
  · exact Nat.lt_of_le_of_lt (length_of_repeatUncounted h) hn
  · exact Nat.lt_of_le_of_lt (length_of_repeatCounted h) hs
  · obtain ⟨t, ht⟩ := cursor_of_pushRead h
    exact Nat.lt_of_le_of_lt (length_of_readEscape ht) hn
  all_goals cases h; exact hn

/-- Reads to the end of the pattern. -/
def run (r : Reader) : Except Refusal Tree :=
  let c := r.cursor.skip
  match _h : c.rest with
  | [] => finish { r with cursor := c }
  | x :: _ =>
    match _h' : step { r with cursor := c } x with
    | .error refusal => .error refusal
    | .ok s => s.run
termination_by r.cursor.rest.length
decreasing_by
  exact Nat.lt_of_lt_of_le (length_of_step (r := { r with cursor := c }) _h _h')
    (length_skip r.cursor)

end Reader

/-- The syntax tree of a pattern, or why the pattern is refused. -/
def Tree.ofPattern (pattern : String) : Except Refusal Tree := do
  let t ← (Reader.ofString pattern).run
  match t.tooDeep? nestLimit with
  | some span => refuse (.nestedTooDeep nestLimit) span
  | none => return t

end PatternAutomata
