/-!
# Expressions

The expression tree from which automata are compiled. A root holds the flags of the pattern and its
body; sequences, binary choices, repetitions, groups and characters build the body. Character
classes, assertions and backreferences carry only their text: an expression can describe them, but
no automaton is made of them.
-/

namespace PatternAutomata

/-- How often the operand of a repetition may occur. -/
inductive QuantifierKind where
  /-- Any number of times, written `*`. -/
  | zeroOrMore
  /-- At least once, written `+`. -/
  | oneOrMore
  /-- At most once, written `?`. -/
  | zeroOrOne
  /-- A counted number of times, at least `min`, and at most `max` if there is one. -/
  | range (min : UInt32) (max : Option UInt32)
deriving DecidableEq, Repr

namespace QuantifierKind

/-- A quantifier kind as it is written in a pattern. -/
def text : QuantifierKind → String
  | zeroOrMore => "*"
  | oneOrMore => "+"
  | zeroOrOne => "?"
  | range min none => "\x7b" ++ toString min.toNat ++ ",\x7d"
  | range min (some max) =>
    if min = max then "\x7b" ++ toString min.toNat ++ "\x7d"
    else "\x7b" ++ toString min.toNat ++ "," ++ toString max.toNat ++ "\x7d"

/-- Whether the bounds of a counted quantifier are in order. -/
def isOrdered : QuantifierKind → Bool
  | range min (some max) => min ≤ max
  | _ => true

end QuantifierKind

/-- A quantifier: how often, and whether as often as possible. -/
structure Quantifier where
  kind : QuantifierKind
  greedy : Bool
deriving DecidableEq, Repr

/-- How a character came to stand in a pattern. -/
inductive CharKind where
  /-- It stands for itself, with a backslash before it or without. -/
  | simple
  /-- It is the dot that stands for any character. -/
  | wildcard
  /-- It was named by a letter, such as the newline. -/
  | control
  /-- It was given by its code point in hexadecimal. -/
  | hex
  /-- It was given by its code point in octal. -/
  | octal
deriving DecidableEq, Repr

/-- The name of a character kind. -/
def CharKind.text : CharKind → String
  | simple => "simple"
  | wildcard => "meta"
  | control => "control"
  | hex => "hex"
  | octal => "oct"

/-- An expression over characters. -/
inductive Expr where
  /-- A whole pattern with its flags. -/
  | root (flags : String) (body : Expr)
  /-- The items one after the other. -/
  | sequence (items : List Expr)
  /-- One of two alternatives. -/
  | choice (left right : Expr)
  /-- The operand as often as the quantifier says. -/
  | repetition (quantifier : Quantifier) (operand : Expr)
  /-- A single character. -/
  | char (kind : CharKind) (value : Char)
  /-- The body in parentheses. -/
  | group (capturing : Bool) (body : Expr)
  /-- A class of characters. -/
  | charClass (text : String)
  /-- A condition on the place in the text. -/
  | assertion (text : String)
  /-- A repetition of what a group has matched. -/
  | backreference (text : String)
deriving Repr

namespace Expr

/-- The name of the kind of an expression, as messages spell it. -/
def typeName : Expr → String
  | root .. => "RegExp"
  | sequence .. => "Alternative"
  | choice .. => "Disjunction"
  | repetition .. => "Repetition"
  | char .. => "Char"
  | group .. => "Group"
  | charClass .. => "CharacterClass"
  | assertion .. => "Assertion"
  | backreference .. => "Backreference"

mutual

/-- Whether two expressions are equal. -/
def same : Expr → Expr → Bool
  | root f a, root g b => f == g && same a b
  | sequence as, sequence bs => sameAll as bs
  | choice a b, choice c d => same a c && same b d
  | repetition p a, repetition q b => p == q && same a b
  | char j x, char k y => j == k && x == y
  | group p a, group q b => p == q && same a b
  | charClass s, charClass t => s == t
  | assertion s, assertion t => s == t
  | backreference s, backreference t => s == t
  | _, _ => false

/-- Whether two lists of expressions are equal. -/
def sameAll : List Expr → List Expr → Bool
  | [], [] => true
  | a :: as, b :: bs => same a b && sameAll as bs
  | _, _ => false

end

mutual

theorem same_iff : ∀ a b : Expr, same a b = true ↔ a = b
  | root f a, b => by cases b <;> simp [same, same_iff a]
  | sequence as, b => by cases b <;> simp [same, sameAll_iff as]
  | choice a b, c => by cases c <;> simp [same, same_iff a, same_iff b]
  | repetition p a, b => by cases b <;> simp [same, same_iff a]
  | char j x, b => by cases b <;> simp [same]
  | group p a, b => by cases b <;> simp [same, same_iff a]
  | charClass s, b => by cases b <;> simp [same]
  | assertion s, b => by cases b <;> simp [same]
  | backreference s, b => by cases b <;> simp [same]

theorem sameAll_iff : ∀ as bs : List Expr, sameAll as bs = true ↔ as = bs
  | [], bs => by cases bs <;> simp [sameAll]
  | a :: as, bs => by cases bs <;> simp [sameAll, same_iff a, sameAll_iff as]

end

instance : DecidableEq Expr := fun a b => decidable_of_iff (same a b = true) (same_iff a b)

end Expr

end PatternAutomata
