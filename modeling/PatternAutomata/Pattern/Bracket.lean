import PatternAutomata.Pattern.Escape

/-!
# Bracketed classes

A class in brackets is read with a stack of the classes that are still open, so that classes nest to
any depth. The operators `&&`, `--` and `~~` have one precedence and group to the left; between them
stand unions of any number of items, which may be empty.
-/

namespace PatternAutomata

/-- An open class: what has been read of it. -/
structure OpenClass where
  /-- The stretch of its opening, which tells where it was left open. -/
  opening : Span
  /-- The operand on the left of the operator that was read last. -/
  left : Option ClassTree
  /-- Where the present union began. -/
  begun : Position
  /-- The items of the present union, the latest first. -/
  items : List ClassTree
deriving Repr

namespace OpenClass

/-- Adds an item to the present union. -/
def push (k : OpenClass) (item : ClassTree) : OpenClass := { k with items := item :: k.items }

/-- The present union, which may be empty or a single item. -/
def union (k : OpenClass) : ClassTree :=
  match k.items with
  | [] => .item (.point k.begun)
  | [item] => item
  | last :: items =>
    .union ⟨(items.getLast?.getD last).span.start, last.span.stop⟩ (last :: items).reverse

/-- All that has been read: the present union behind the operator before it, if there is one. -/
def body (k : OpenClass) : ClassTree :=
  match k.left with
  | none => k.union
  | some left => .operation ⟨left.span.start, k.union.span.stop⟩ left k.union

/-- Goes on after an operator, behind which the next union begins at `begun`. -/
def operator (k : OpenClass) (begun : Position) : OpenClass :=
  { k with left := some k.body, begun := begun, items := [] }

/-- The class, closed by a bracket that ends at `stop`. -/
def close (k : OpenClass) (stop : Position) : ClassTree := .bracket ⟨k.opening.start, stop⟩ k.body

end OpenClass

/-- The names of the classes written between `[:` and `:]`. -/
def namedClasses : List String :=
  ["alnum", "alpha", "ascii", "blank", "cntrl", "digit", "graph", "lower", "print", "punct",
   "space", "upper", "word", "xdigit"]

namespace Cursor

/-- The cursor behind a named class such as `[:alpha:]` or `[:^alpha:]`, if one is under the
cursor. -/
def namedClass? (c : Cursor) : Option Cursor :=
  if c.next.peek? = some ':' then
    let d := c.next.next
    let name := (if d.peek? = some '^' then d.next else d).takeWhile (· != ':')
    let e := name.2.next
    if e.peek? = some ']' && namedClasses.contains (textOf name.1) then some e.next else none
  else none

/-- The class that the bracket under the cursor opens. A caret may follow the bracket; then dashes
stand for themselves, and so does a closing bracket that comes first. -/
def openClass (c : Cursor) : Except Refusal (OpenClass × Cursor) :=
  let d := c.nextSkip
  if d.rest.isEmpty then refuse .classUnclosed (c.spanTo d)
  else
    let e := if d.peek? = some '^' then d.nextSkip else d
    if e.rest.isEmpty then refuse .classUnclosed (c.spanTo e)
    else
      let dashes := e.takeSpacedWhile (· == '-')
      let f := dashes.2
      if f.rest.isEmpty then refuse .classUnclosed c.here
      else if dashes.1.isEmpty && f.peek? = some ']' then
        let g := f.nextSkip
        if g.rest.isEmpty then refuse .classUnclosed (c.spanTo g)
        else .ok (⟨c.spanTo g, none, e.pos, [.item f.current]⟩, g)
      else .ok (⟨c.spanTo f, none, e.pos, (dashes.1.map fun dash => .item dash.2).reverse⟩, f)

/-- One end of a range: an escape, or any other character. -/
def readClassItem (c : Cursor) : Except Refusal (Tree × Cursor) :=
  match c.peek? with
  | some '\\' => c.readEscape
  | some x => .ok (.literal c.current .verbatim x, c.next)
  | none => refuse .classUnclosed c.here

/-- The next character that matters after a dash, when a comment is being passed or not. -/
def peekBeyondSpace : (inComment : Bool) → List Char → Option Char
  | _, [] => none
  | inComment, x :: rest =>
    if isBlank x then peekBeyondSpace inComment rest
    else if !inComment && x == '#' then peekBeyondSpace true rest
    else some x

/-- The character after the one under the cursor, looking through space in verbose mode. Here a
comment lasts only to the next character that is not blank. -/
def peekSecond? (c : Cursor) : Option Char :=
  if c.verbose then (peekBeyondSpace false c.next.rest).or c.next.peek? else c.next.peek?

/-- The tree of an escape or character as an item of a class. -/
def classItem : Tree → Except Refusal ClassTree
  | .assertion span _ => refuse .classItem span
  | t => .ok (.item t.span)

/-- The character at one end of a range. -/
def rangeBoundary : Tree → Except Refusal Char
  | .literal _ _ value => .ok value
  | t => refuse .classRangeBoundary t.span

/-- The range between two ends. -/
def classRange (first second : Tree) : Except Refusal ClassTree := do
  let span : Span := ⟨first.span.start, second.span.stop⟩
  let low ← rangeBoundary first
  let high ← rangeBoundary second
  if high < low then refuse .classRangeReversed span else return .item span

/-- The item or range under the cursor, in a class whose opening is `opening`. -/
def readClassMember (opening : Span) (c : Cursor) : Except Refusal (ClassTree × Cursor) := do
  let (first, d) ← c.readClassItem
  let e := d.skip
  if e.rest.isEmpty then refuse .classUnclosed opening
  else if e.peek? ≠ some '-' || e.peekSecond? = some ']' || e.peekSecond? = some '-' then
    return (← classItem first, e)
  else
    let f := e.nextSkip
    if f.rest.isEmpty then refuse .classUnclosed opening
    else
      let (second, g) ← f.readClassItem
      return (← classRange first second, g)

/-- Whether the cursor stands at an operator between unions. -/
def atClassOperator (c : Cursor) : Bool :=
  [some '&', some '-', some '~'].contains c.peek? && c.next.peek? == c.peek?

theorem length_of_namedClass? {c d : Cursor} (h : c.namedClass? = some d) :
    d.rest.length ≤ c.next.rest.length := by
  unfold namedClass? at h
  grind [length_next, length_takeWhile]

theorem length_of_openClass {c d : Cursor} {k : OpenClass} (h : c.openClass = .ok (k, d)) :
    d.rest.length ≤ c.nextSkip.rest.length := by
  unfold openClass refuse at h
  grind [length_nextSkip, length_takeSpacedWhile]

theorem length_of_readClassItem {c d : Cursor} {t : Tree} (h : c.readClassItem = .ok (t, d)) :
    d.rest.length ≤ c.next.rest.length := by
  unfold readClassItem refuse at h
  grind [→ length_of_readEscape]

theorem length_of_readClassMember {c d : Cursor} {opening : Span} {item : ClassTree}
    (h : c.readClassMember opening = .ok (item, d)) : d.rest.length ≤ c.next.rest.length := by
  simp only [readClassMember, refuse, bind, Except.bind, pure, Except.pure] at h
  grind [→ length_of_readClassItem, length_next, length_nextSkip, length_skip]

end Cursor

/-- The reader of a class: where it stands and the open classes, the innermost one apart. -/
structure ClassReader where
  cursor : Cursor
  inner : OpenClass
  outer : List OpenClass
deriving Repr

namespace ClassReader

open Cursor

/-- Adds an item that ends before the cursor `d`. -/
def push (r : ClassReader) (item : ClassTree) (d : Cursor) : ClassReader :=
  { r with cursor := d, inner := r.inner.push item }

/-- What a step of the reader leads to: it goes on, or the outermost class is closed. -/
inductive Outcome where
  | reading (r : ClassReader)
  | closed (body : ClassTree) (cursor : Cursor)

/-- Reads what stands under the cursor, which is not at the end. -/
def step (r : ClassReader) : Except Refusal Outcome := do
  let c := r.cursor
  match c.peek? with
  | some '[' =>
    match c.namedClass? with
    | some d => return .reading (r.push (.item (c.spanTo d)) d)
    | none =>
      let (k, d) ← c.openClass
      return .reading ⟨d, k, r.inner :: r.outer⟩
  | some ']' =>
    match r.outer with
    | [] => return .closed r.inner.body c.next
    | k :: outer => return .reading ⟨c.next, k.push (r.inner.close c.next.pos), outer⟩
  | _ =>
    if c.atClassOperator then
      let d := c.next.next
      return .reading { r with cursor := d, inner := r.inner.operator d.pos }
    else
      let (item, d) ← c.readClassMember r.inner.opening
      return .reading (r.push item d)

theorem length_of_step {r s : ClassReader} (h : r.step = .ok (.reading s)) :
    s.cursor.rest.length ≤ r.cursor.nextSkip.rest.length ∨
      s.cursor.rest.length ≤ r.cursor.next.rest.length := by
  simp only [step, push, bind, Except.bind, pure, Except.pure] at h
  grind [→ length_of_namedClass?, → length_of_openClass, → length_of_readClassMember, length_next]

/-- Reads to the bracket that closes the outermost class. -/
def run (r : ClassReader) : Except Refusal (ClassTree × Cursor) :=
  let c := r.cursor.skip
  match _h : c.rest with
  | [] => refuse .classUnclosed r.inner.opening
  | _ :: _ =>
    match _h' : step { r with cursor := c } with
    | .error refusal => .error refusal
    | .ok (.closed body d) => .ok (body, d)
    | .ok (.reading s) => s.run
termination_by r.cursor.rest.length
decreasing_by
  have := length_of_step _h'
  have := length_skip r.cursor
  have := length_next_of_cons _h
  have := length_nextSkip_of_cons _h
  simp only [c] at *
  omega

theorem length_of_run {r : ClassReader} {body : ClassTree} {d : Cursor}
    (h : r.run = .ok (body, d)) : d.rest.length ≤ r.cursor.rest.length := by
  fun_induction run r with
  | case1 r c hc => simp [refuse] at h
  | case2 => simp at h
  | case3 r c x rest hc body' d' hs =>
    have := length_skip r.cursor
    have := length_next c
    simp only [step, bind, Except.bind, pure, Except.pure] at hs
    grind
  | case4 r c x rest hc s hs ih =>
    have := ih h
    have := length_of_step hs
    have := length_skip r.cursor
    have := length_next c
    have := length_nextSkip c
    simp only [c] at *
    omega

end ClassReader

/-- The class whose opening bracket is under the cursor. -/
def Cursor.readClass (c : Cursor) : Except Refusal (Tree × Cursor) := do
  let (k, d) ← c.openClass
  let (body, e) ← ClassReader.run ⟨d, k, []⟩
  return (.bracketed (c.spanTo e) (c.textTo e) body, e)

theorem Cursor.length_of_readClass {c d : Cursor} {t : Tree} (h : c.readClass = .ok (t, d)) :
    d.rest.length ≤ c.nextSkip.rest.length := by
  simp only [readClass, bind, Except.bind, pure, Except.pure] at h
  grind [→ length_of_openClass, → ClassReader.length_of_run]

end PatternAutomata
