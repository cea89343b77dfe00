/-!
# Lists as sets and as maps

Some lists hold each member, or each key, only once, and are kept in the order of insertion because
that order is shown. Two of them are the same set or the same map when they differ in that order
alone.
-/

namespace PatternAutomata.Unordered

variable {α β : Type} [BEq α]

/-- Whether two lists without repetitions have the same members. -/
def sameSet (xs ys : List α) : Bool := xs.length == ys.length && xs.all ys.contains

/-- Whether two lists without repeated keys have the same keys, with values that are `same`. -/
def sameMap (same : β → β → Bool) (xs ys : List (α × β)) : Bool :=
  xs.length == ys.length && xs.all fun x =>
    match ys.lookup x.1 with
    | some value => same x.2 value
    | none => false

end PatternAutomata.Unordered
