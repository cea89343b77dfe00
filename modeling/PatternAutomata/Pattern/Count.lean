import PatternAutomata.Pattern.Escape

/-!
# Quantifiers

The quantifiers `?`, `*` and `+`, and the counts in braces. A question mark behind a quantifier asks
for as few repetitions as possible. In verbose mode space may stand between the parts of a counted
quantifier, and blanks may always surround its counts.
-/

namespace PatternAutomata.Cursor

/-- The count under the cursor, or why it is none, and the cursor behind it and the blanks around
it. -/
def readCount (c : Cursor) : Except Refusal UInt32 × Cursor :=
  let d := (c.takeWhile isBlank).2
  let digits := d.takeSpacedWhile Char.isDigit
  let value := numeral 10 (fun x => x.toNat - '0'.toNat) (digits.1.map Prod.fst)
  let count :=
    if digits.1.isEmpty then refuse .countMissing (d.spanTo digits.2)
    else if value < UInt32.size then .ok (UInt32.ofNat value)
    else refuse .countTooLarge (d.spanTo digits.2)
  (count, (digits.2.takeSpacedWhile isBlank).2)

/-- The counts behind the brace under the cursor, and the cursor behind them. An open brace at the
end of the pattern weighs more than a bad first count. -/
def readRange (c : Cursor) : Except Refusal (QuantifierKind × Cursor) := do
  let d := c.nextSkip
  if d.rest.isEmpty then refuse .countUnclosed (c.spanTo d)
  else
    let least := d.readCount
    let e := least.2
    if e.rest.isEmpty then refuse .countUnclosed (c.spanTo e)
    else if e.peek? = some ',' then
      let f := e.nextSkip
      if f.rest.isEmpty then refuse .countUnclosed (c.spanTo f)
      else
        let min ← least.1
        if f.peek? = some '\x7d' then return (.range min none, f)
        else
          let greatest := f.readCount
          let max ← greatest.1
          return (.range min (some max), greatest.2)
    else
      let count ← least.1
      return (.range count (some count), e)

/-- Whether a question mark is under the cursor, which would make a quantifier lazy, and the cursor
behind it. -/
def readLazy (c : Cursor) : Bool × Cursor :=
  if c.peek? = some '?' then (true, c.next) else (false, c)

/-- The counted quantifier whose brace is under the cursor. -/
def readCounted (c : Cursor) : Except Refusal (Quantifier × Cursor) := do
  let (kind, d) ← c.readRange
  if d.peek? ≠ some '\x7d' then refuse .countUnclosed (c.spanTo d)
  else
    let e := d.nextSkip.readLazy
    if kind.isOrdered then return (⟨kind, !e.1⟩, e.2) else refuse .countsReversed (c.spanTo e.2)

/-- The quantifier of one character, which is under the cursor. -/
def readUncounted (kind : QuantifierKind) (c : Cursor) : Quantifier × Cursor :=
  let d := c.next.readLazy
  (⟨kind, !d.1⟩, d.2)

theorem length_readCount (c : Cursor) : c.readCount.2.rest.length ≤ c.rest.length := by
  unfold readCount
  grind [length_takeWhile, length_takeSpacedWhile]

theorem length_of_readRange {c d : Cursor} {kind : QuantifierKind}
    (h : c.readRange = .ok (kind, d)) : d.rest.length ≤ c.nextSkip.rest.length := by
  simp only [readRange, refuse, bind, Except.bind, pure, Except.pure] at h
  grind [length_readCount, length_nextSkip]

theorem length_readLazy (c : Cursor) : c.readLazy.2.rest.length ≤ c.rest.length := by
  unfold readLazy
  grind [length_next]

theorem length_of_readCounted {c d : Cursor} {q : Quantifier}
    (h : c.readCounted = .ok (q, d)) : d.rest.length ≤ c.nextSkip.rest.length := by
  simp only [readCounted, refuse, bind, Except.bind, pure, Except.pure] at h
  grind [→ length_of_readRange, length_readLazy, length_nextSkip]

theorem length_readUncounted (kind : QuantifierKind) (c : Cursor) :
    (c.readUncounted kind).2.rest.length ≤ c.next.rest.length :=
  length_readLazy c.next

end PatternAutomata.Cursor
