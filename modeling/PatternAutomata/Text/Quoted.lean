import PatternAutomata.Text.Printable

/-!
# Quoted text

How messages quote text that may hold any character: between two marks, with a backslash before the
mark and the backslash, short escapes for the common controls, and the code point in hexadecimal
for every other character that has no shape of its own.
-/

namespace PatternAutomata.Quoted

/-- The text that stands for `c` between two marks `mark`. -/
def escape (mark c : Char) : String :=
  if c = mark ∨ c = '\\' then String.ofList ['\\', c]
  else if c = '\n' then "\\n"
  else if c = '\r' then "\\r"
  else if c = '\t' then "\\t"
  else if c = '\x00' then "\\0"
  else if isPrintable c then c.toString
  else "\\u\x7b" ++ String.ofList (Nat.toDigits 16 c.toNat) ++ "\x7d"

/-- A string between double marks. -/
def ofString (s : String) : String :=
  "\"" ++ String.join (s.toList.map (escape '"')) ++ "\""

/-- A character between single marks. -/
def ofChar (c : Char) : String :=
  "'" ++ escape '\'' c ++ "'"

end PatternAutomata.Quoted
