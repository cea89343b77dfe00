import Std.Data.TreeSet

/-!
# Walks through graphs

A graph is given by the function that lists the successors of a node. A walk enters nodes one after
the other, each only once: it keeps a list of nodes that wait to be entered, enters the first one
that it has not entered yet, and puts the successors of that node before the others. Nodes are thus
entered in the order of a depth-first traversal.

A walk needs to know how many nodes it may enter at most. Where that is no less than the number of
nodes that can be reached, the walk goes on until no node waits.

A trail is the list of the nodes entered so far; it also serves to keep the first occurrence of each
member of a list.
-/

namespace PatternAutomata

/-- Distinct things in the order in which they were entered. -/
structure Trail (α : Type) [Ord α] where
  /-- The things entered, the latest first. -/
  latestFirst : List α
  /-- The same things, for looking them up. -/
  index : Std.TreeSet α
  nodup : latestFirst.Nodup
  contains_iff : ∀ a, index.contains a = true ↔ a ∈ latestFirst

namespace Trail

variable {α : Type} [Ord α]

/-- Whether a thing has been entered. -/
def has (t : Trail α) (a : α) : Bool := t.index.contains a

/-- The things entered, in order. -/
def toList (t : Trail α) : List α := t.latestFirst.reverse

theorem nodup_toList (t : Trail α) : t.toList.Nodup := by
  simpa [toList, List.Nodup, List.pairwise_reverse, eq_comm] using t.nodup

@[simp] theorem has_iff {t : Trail α} {a : α} : t.has a = true ↔ a ∈ t.toList := by
  simp [has, toList, t.contains_iff]

/-- The trail on which nothing has been entered. -/
def empty : Trail α := ⟨[], ∅, .nil, by simp⟩

@[simp] theorem toList_empty : (empty : Trail α).toList = [] := rfl

variable [Std.TransOrd α] [Std.LawfulEqOrd α]

/-- Enters a thing, unless it has been entered before. -/
def visit (t : Trail α) (a : α) : Trail α :=
  if h : t.index.contains a = true then t
  else
    ⟨a :: t.latestFirst, t.index.insert a,
      List.nodup_cons.2 ⟨fun m => h ((t.contains_iff a).2 m), t.nodup⟩,
      fun b => by
        simp only [Std.TreeSet.contains_insert, Bool.or_eq_true, beq_iff_eq,
          Std.LawfulEqOrd.compare_eq_iff_eq, t.contains_iff, List.mem_cons]
        exact or_congr_left eq_comm⟩

/-- The trail of a list of things. -/
def ofList (as : List α) : Trail α := as.foldl visit empty

theorem toList_visit (t : Trail α) (a : α) :
    (t.visit a).toList = if t.has a then t.toList else t.toList ++ [a] := by
  unfold visit has
  split <;> simp_all [toList]

end Trail

section Distinct

variable {α : Type} [Ord α] [Std.TransOrd α] [Std.LawfulEqOrd α]

/-- The members of a list without repetitions, each where it occurs first. -/
def distinct (as : List α) : List α := (Trail.ofList as).toList

theorem nodup_distinct (as : List α) : (distinct as).Nodup := Trail.nodup_toList _

@[simp] theorem mem_distinct {as : List α} {a : α} : a ∈ distinct as ↔ a ∈ as := by
  have general : ∀ (as : List α) (t : Trail α),
      a ∈ (as.foldl Trail.visit t).toList ↔ a ∈ t.toList ∨ a ∈ as := by
    intro as
    induction as with
    | nil => simp
    | cons b as ih =>
      intro t
      rw [List.foldl_cons, ih, Trail.toList_visit]
      by_cases h : t.has b = true <;> grind [Trail.has_iff]
  simp [distinct, Trail.ofList, general]

end Distinct

/-- A walk: what it has entered and what waits to be entered. -/
structure Walk (α : Type) [Ord α] where
  trail : Trail α
  pending : List α

namespace Walk

variable {α : Type} [Ord α]

/-- The walk that is to start from some nodes. -/
def start (roots : List α) : Walk α := ⟨.empty, roots⟩

variable [Std.TransOrd α] [Std.LawfulEqOrd α]

/-- Enters the first waiting node that has not been entered, if there is one. -/
def step? (next : α → List α) (w : Walk α) : Option (Walk α) :=
  match w.pending.dropWhile w.trail.has with
  | [] => none
  | a :: rest => some ⟨w.trail.visit a, next a ++ rest⟩

/-- Enters nodes while there are any, but at most `capacity` of them. -/
def run (next : α → List α) : (capacity : Nat) → Walk α → Walk α
  | 0, w => w
  | capacity + 1, w =>
    match w.step? next with
    | none => w
    | some w => run next capacity w

end Walk

/-- The nodes that a walk from some roots enters, at most `capacity` of them. -/
def preorder {α : Type} [Ord α] [Std.TransOrd α] [Std.LawfulEqOrd α] (next : α → List α)
    (capacity : Nat) (roots : List α) : List α :=
  ((Walk.start roots).run next capacity).trail.toList

end PatternAutomata
