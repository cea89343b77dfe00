import PatternAutomata.Pattern.Escape
import PatternAutomata.Text.Letter

/-!
# Openings of groups

What follows an opening parenthesis decides what it opens: a capturing group, with or without a
name, a plain group with flags for its inside, or a directive that sets flags for the rest of the
group around it. Looking around is refused.
-/

namespace PatternAutomata

/-- What an opening parenthesis begins. -/
inductive Opening where
  | group (kind : GroupKind)
  /-- A directive, complete with its closing parenthesis. -/
  | directive (flags : String)
deriving DecidableEq, Repr

/-- What flags say about one of them: set, unset when a dash stands before it, or nothing. -/
def flagSetting? (letter : Char) (flags : String) : Option Bool :=
  if flags.toList.contains letter then
    some !((flags.toList.takeWhile (· != letter)).contains '-')
  else none

/-- Whether blanks and comments are skipped behind an opening. -/
def Opening.verbose? : Opening → Option Bool
  | group (.plain flags) => flagSetting? 'x' flags
  | group _ => none
  | directive flags => flagSetting? 'x' flags

/-- The letters of the flags. -/
def flagLetters : List Char := ['i', 'm', 's', 'U', 'u', 'R', 'x']

namespace Cursor

/-- What is wrong with the flags `letters`, of which `seen` stand before. Each letter may be there
once, and so may the dash. -/
def flagFault? (seen : List (Char × Span)) : List (Char × Span) → Option Refusal
  | [] => none
  | (x, span) :: letters =>
    match seen.find? fun other => other.1 == x with
    | some other =>
      some (.fault (if x = '-' then .flagNegationRepeated other.2 else .flagRepeated other.2) span)
    | none =>
      if x = '-' || flagLetters.contains x then flagFault? (seen ++ [(x, span)]) letters
      else some (.fault .flagUnknown span)

/-- The flags under the cursor, up to the colon or parenthesis that ends them, and the cursor before
that character. -/
def readFlags (c : Cursor) : Except Refusal (String × Cursor) :=
  let letters := c.takeWhile fun x => x != ':' && x != ')'
  match flagFault? [] letters.1 with
  | some refusal => .error refusal
  | none =>
    if letters.2.rest.isEmpty then refuse .flagUnfinished letters.2.here
    else
      match letters.1.getLast? with
      | some ('-', span) => refuse .flagNegationDangling span
      | _ => .ok (textOf letters.1, letters.2)

/-- Whether `x` may stand in the name of a group, as its first character or a later one. -/
def isNameCharacter (first : Bool) (x : Char) : Bool :=
  x == '_' || if first then isAlphabetic x else ['.', '[', ']'].contains x || isAlphanumeric x

/-- The first character of a name that may not stand there. -/
def badNameCharacter? (name : List (Char × Span)) : Option (Char × Span) :=
  match name with
  | [] => none
  | x :: more =>
    if isNameCharacter true x.1 then more.find? fun y => !isNameCharacter false y.1 else some x

/-- The name of a group under the cursor and the cursor behind the bracket that ends it. The names
in `names` are taken. -/
def readName (names : List (String × Span)) (c : Cursor) : Except Refusal (GroupKind × Cursor) :=
  let name := c.takeWhile (· != '>')
  match badNameCharacter? name.1 with
  | some bad => refuse .groupNameCharacter bad.2
  | none =>
    if name.2.rest.isEmpty then refuse .groupNameUnfinished name.2.here
    else if name.1.isEmpty then refuse .groupNameEmpty c.here
    else
      match names.find? fun other => other.1 == textOf name.1 with
      | some other => refuse (.groupNameRepeated other.2) (c.spanTo name.2)
      | none => .ok (.named (textOf name.1) (c.spanTo name.2), name.2.next)

/-- The cursor behind the characters `word`, if they are under the cursor. -/
def after? : List Char → Cursor → Option Cursor
  | [], c => some c
  | x :: word, c => if c.peek? = some x then after? word c.next else none

/-- The first of some words that is under the cursor, as the cursor behind it. -/
def afterAny? (words : List String) (c : Cursor) : Option Cursor :=
  words.findSome? fun word => c.after? word.toList

/-- What opens behind the parenthesis under the cursor, and the cursor there. -/
def readOpening (names : List (String × Span)) (c : Cursor) :
    Except Refusal (Opening × Cursor) := do
  let d := c.nextSkip
  match d.afterAny? ["?=", "?!", "?<=", "?<!"] with
  | some e => .error (.lookAround (c.textTo e))
  | none =>
    match d.afterAny? ["?P<", "?<"] with
    | some e =>
      let (kind, f) ← e.readName names
      return (.group kind, f)
    | none =>
      if d.peek? = some '?' then
        let e := d.next
        if e.rest.isEmpty then refuse .groupUnclosed c.current
        else
          let (flags, f) ← e.readFlags
          if f.peek? = some ':' then return (.group (.plain flags), f.next)
          else if flags.isEmpty then refuse .operandMissing d.here
          else return (.directive flags, f.next)
      else return (.group .numbered, d)

theorem length_of_readFlags {c d : Cursor} {flags : String} (h : c.readFlags = .ok (flags, d)) :
    d.rest.length ≤ c.rest.length := by
  unfold readFlags refuse at h
  grind [length_takeWhile]

theorem length_of_readName {names : List (String × Span)} {c d : Cursor} {kind : GroupKind}
    (h : c.readName names = .ok (kind, d)) : d.rest.length ≤ c.rest.length := by
  unfold readName refuse at h
  grind [length_takeWhile, length_next]

theorem length_of_after? {word : List Char} {c d : Cursor} (h : c.after? word = some d) :
    d.rest.length ≤ c.rest.length := by
  induction word generalizing c with
  | nil => simp_all [after?]
  | cons x word ih => grind [after?, length_next]

theorem length_of_afterAny? {words : List String} {c d : Cursor} (h : c.afterAny? words = some d) :
    d.rest.length ≤ c.rest.length := by
  obtain ⟨word, _, hw⟩ := List.exists_of_findSome?_eq_some h
  exact length_of_after? hw

theorem length_of_readOpening {names : List (String × Span)} {c d : Cursor} {o : Opening}
    (h : c.readOpening names = .ok (o, d)) : d.rest.length ≤ c.nextSkip.rest.length := by
  simp only [readOpening, refuse, bind, Except.bind, pure, Except.pure] at h
  grind [→ length_of_afterAny?, → length_of_readName, → length_of_readFlags, length_next]

end Cursor

end PatternAutomata
