import PatternAutomata.Pattern.Fault
import PatternAutomata.Pattern.Tree
import PatternAutomata.Text.Cursor

/-!
# Escapes

What a backslash and the characters after it mean: a literal character, written as itself, by a
letter or by its code point; a class of characters; or an assertion. Every reader takes a cursor and
gives the tree together with the cursor behind it, which never stands before the first one.
-/

namespace PatternAutomata

/-- The characters whose special meaning a backslash takes away. -/
def specialCharacters : List Char :=
  ['\\', '.', '+', '*', '?', '(', ')', '|', '[', ']', '\x7b', '\x7d', '^', '$', '#', '&', '-', '~']

/-- Whether a backslash before `c` takes a special meaning away. -/
def isSpecial (c : Char) : Bool := specialCharacters.contains c

/-- Whether a backslash before `c` is allowed although `c` has no special meaning. -/
def isSuperfluous (c : Char) : Bool := c.toNat < 128 && !c.isAlphanum && c != '<' && c != '>'

/-- The control character that a letter names. -/
def controlNamed? : Char → Option Char
  | 'a' => some '\x07'
  | 'f' => some '\x0c'
  | 't' => some '\t'
  | 'n' => some '\n'
  | 'r' => some '\r'
  | 'v' => some '\x0b'
  | _ => none

/-- The number of digits of a code point after a letter, when they are not in braces. -/
def hexWidth? : Char → Option Nat
  | 'x' => some 2
  | 'u' => some 4
  | 'U' => some 8
  | _ => none

/-- Whether `c` is a hexadecimal digit. -/
def isHexDigit (c : Char) : Bool :=
  c.isDigit || ('a' ≤ c && c ≤ 'f') || ('A' ≤ c && c ≤ 'F')

/-- The value of a hexadecimal digit. -/
def hexDigitValue (c : Char) : Nat :=
  if c.isDigit then c.toNat - '0'.toNat
  else if 'a' ≤ c then c.toNat - 'a'.toNat + 10
  else c.toNat - 'A'.toNat + 10

/-- The number that digits of a base write. -/
def numeral (base : Nat) (digit : Char → Nat) (digits : List Char) : Nat :=
  digits.foldl (fun value c => base * value + digit c) 0

/-- The character with a code point, if there is one. -/
def character? (codePoint : Nat) : Option Char :=
  if codePoint.isValidChar then some (Char.ofNat codePoint) else none

/-- The characters of the names of word boundaries. -/
def isBoundaryName (c : Char) : Bool := c.isAlpha || c == '-'

/-- The names of word boundaries. -/
def boundaryNames : List String := ["start", "end", "start-half", "end-half"]

namespace Cursor

/-- The first of some characters that is no hexadecimal digit. -/
def badHexDigit? (digits : List (Char × Span)) : Option (Char × Span) :=
  digits.find? fun digit => !isHexDigit digit.1

/-- The literal that hexadecimal digits give. The escape starts at `start`, the digits stand at
`span`, and `stop` is behind everything. -/
def hexLiteral (start stop : Cursor) (span : Span) (digits : List (Char × Span)) :
    Except Refusal (Tree × Cursor) :=
  match character? (numeral 16 hexDigitValue (digits.map Prod.fst)) with
  | none => refuse .hexNoCharacter span
  | some value => .ok (.literal (start.spanTo stop) .hex value, stop)

/-- The literal of the `width` digits under the cursor, of an escape that starts at `start`. -/
def readHexDigits (start : Cursor) (width : Nat) (c : Cursor) : Except Refusal (Tree × Cursor) :=
  let taken := c.takeSpaced width
  match badHexDigit? taken.1 with
  | some digit => refuse .hexDigit digit.2
  | none =>
    if taken.1.length < width then refuse .escapeUnfinished taken.2.here
    else hexLiteral start taken.2 (c.spanTo taken.2) taken.1

/-- The literal of the digits between the brace under the cursor and the closing one, of an escape
that starts at `start`. -/
def readHexBraces (start c : Cursor) : Except Refusal (Tree × Cursor) :=
  let taken := c.nextSkip.takeSpacedWhile (· != '\x7d')
  match badHexDigit? taken.1 with
  | some digit => refuse .hexDigit digit.2
  | none =>
    if taken.2.rest.isEmpty then refuse .escapeUnfinished (c.spanTo taken.2)
    else
      let stop := taken.2.nextSkip
      if taken.1.isEmpty then refuse .hexEmpty (c.spanTo stop)
      else hexLiteral start stop (c.next.spanTo taken.2) taken.1

/-- The literal of a code point with `width` digits or any number of digits in braces. The cursor
stands at the letter of an escape that starts at `start`. -/
def readHex (start : Cursor) (width : Nat) (c : Cursor) : Except Refusal (Tree × Cursor) :=
  let d := c.nextSkip
  match d.peek? with
  | none => refuse .escapeUnfinished d.here
  | some '\x7b' => readHexBraces start d
  | some _ => readHexDigits start width d

/-- The class of a Unicode property, which is named by one letter or by a name in braces. The cursor
stands at the letter of an escape that starts at `start`. -/
def readProperty (start c : Cursor) : Except Refusal (Tree × Cursor) :=
  let d := c.nextSkip
  match d.peek? with
  | none => refuse .escapeUnfinished d.here
  | some '\x7b' =>
    let e := (d.nextSkip.takeSpacedWhile (· != '\x7d')).2
    if e.rest.isEmpty then refuse .escapeUnfinished e.here
    else .ok (.classEscape (start.spanTo e.next) (start.textTo e.next), e.next)
  | some '\\' => refuse .unicodeClassName d.current
  | some _ => .ok (.classEscape (start.spanTo d.nextSkip) (start.textTo d.nextSkip), d.nextSkip)

/-- The assertion from `start` to `stop`. -/
def assertionTo (start stop : Cursor) : Tree × Cursor :=
  (.assertion (start.spanTo stop) (start.textTo stop), stop)

/-- The word boundary whose escape starts at `start`, with the cursor behind its letter. A brace may
follow with the name of a boundary; a brace with anything else is left for a counted repetition. -/
def readBoundary (start c : Cursor) : Except Refusal (Tree × Cursor) :=
  match c.peek? with
  | some '\x7b' =>
    let d := c.nextSkip
    match d.peek? with
    | none => refuse .boundaryUnfinished (start.spanTo d)
    | some x =>
      if isBoundaryName x then
        let taken := d.takeSpacedWhile isBoundaryName
        if taken.2.peek? ≠ some '\x7d' then refuse .boundaryUnclosed (c.spanTo taken.2)
        else if boundaryNames.contains (textOf taken.1) then .ok (assertionTo start taken.2.next)
        else refuse .boundaryUnknown (d.spanTo taken.2)
      else .ok (assertionTo start c)
  | _ => .ok (assertionTo start c)

/-- The tree of an escape that is complete with the letter `x` after its backslash. -/
def shortEscape? (span : Span) (text : String) (x : Char) : Option Tree :=
  if ['d', 's', 'w', 'D', 'S', 'W'].contains x then some (.classEscape span text)
  else if ['A', 'z', 'B', '<', '>'].contains x then some (.assertion span text)
  else if isSpecial x then some (.literal span .escaped x)
  else if isSuperfluous x then some (.literal span .superfluous x)
  else (controlNamed? x).map (.literal span .control)

/-- The escape whose backslash is under the cursor. -/
def readEscape (c : Cursor) : Except Refusal (Tree × Cursor) :=
  let d := c.next
  match d.peek? with
  | none => refuse .escapeUnfinished (c.spanTo d)
  | some x =>
    let e := d.next
    match hexWidth? x with
    | some width => readHex c width d
    | none =>
      if x.isDigit then .error (.backreference (c.textTo e))
      else if x = 'p' ∨ x = 'P' then readProperty c d
      else if x = 'b' then readBoundary c e
      else
        match shortEscape? (c.spanTo e) (c.textTo e) x with
        | some t => .ok (t, e)
        | none => refuse .escapeUnknown (c.spanTo e)

theorem stop_of_hexLiteral {start stop d : Cursor} {span : Span} {digits : List (Char × Span)}
    {t : Tree} (h : hexLiteral start stop span digits = .ok (t, d)) : d = stop := by
  unfold hexLiteral refuse at h
  grind

theorem length_of_readHex {start c d : Cursor} {width : Nat} {t : Tree}
    (h : readHex start width c = .ok (t, d)) : d.rest.length ≤ c.rest.length := by
  unfold readHex readHexBraces readHexDigits refuse at h
  grind [→ stop_of_hexLiteral, length_nextSkip, length_takeSpaced, length_takeSpacedWhile]

theorem length_of_readProperty {start c d : Cursor} {t : Tree}
    (h : readProperty start c = .ok (t, d)) : d.rest.length ≤ c.rest.length := by
  unfold readProperty refuse at h
  grind [length_next, length_nextSkip, length_takeSpacedWhile]

theorem length_of_readBoundary {start c d : Cursor} {t : Tree}
    (h : readBoundary start c = .ok (t, d)) : d.rest.length ≤ c.rest.length := by
  unfold readBoundary assertionTo refuse at h
  grind [length_next, length_nextSkip, length_takeSpacedWhile]

theorem length_of_readEscape {c d : Cursor} {t : Tree} (h : readEscape c = .ok (t, d)) :
    d.rest.length ≤ c.next.rest.length := by
  unfold readEscape refuse at h
  grind [→ length_of_readHex, → length_of_readProperty, → length_of_readBoundary, length_next]

end Cursor

end PatternAutomata
