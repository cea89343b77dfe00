import PatternAutomata.Unordered

/-!
# States

A state has edges to other states, which it knows by their identifiers. An edge is labelled with a
character that it consumes, or it consumes nothing. Edges are grouped by label in the order in which
the labels were first used, and the targets of a label are kept in the order in which they were
first added, because states are numbered in the order of their edges.
-/

namespace PatternAutomata

/-- The identifier of a state in an arena. -/
abbrev StateId := Nat

/-- The label of an edge. -/
inductive Symbol where
  /-- Nothing is consumed. -/
  | epsilon
  /-- This character is consumed. -/
  | char (c : Char)
deriving DecidableEq, Repr

namespace Symbol

/-- A label as it is shown. -/
def text : Symbol → String
  | epsilon => "ε"
  | char c => c.toString

/-- The order of labels: the empty one first, then the characters by their code points. -/
def le : Symbol → Symbol → Bool
  | epsilon, _ => true
  | char _, epsilon => false
  | char c, char d => c ≤ d

/-- Labels in their order. -/
def sort (symbols : List Symbol) : List Symbol := symbols.mergeSort le

end Symbol

/-- A state with its edges. -/
structure State where
  edges : List (Symbol × List StateId)
  accepting : Bool
deriving DecidableEq, Repr

namespace State

/-- A state without edges. -/
def new (accepting : Bool) : State := ⟨[], accepting⟩

/-- Adds a target to the targets of a label, unless it is there already. -/
def addTarget (symbol : Symbol) (target : StateId) :
    List (Symbol × List StateId) → List (Symbol × List StateId)
  | [] => [(symbol, [target])]
  | (label, targets) :: edges =>
    if label = symbol then
      (label, if target ∈ targets then targets else targets ++ [target]) :: edges
    else (label, targets) :: addTarget symbol target edges

/-- Adds an edge; an edge that is there already is not added again. -/
def connect (s : State) (symbol : Symbol) (target : StateId) : State :=
  { s with edges := addTarget symbol target s.edges }

/-- The targets of the edges with a label. -/
def targets (s : State) (symbol : Symbol) : List StateId := (s.edges.lookup symbol).getD []

/-- The targets of all edges. -/
def successors (s : State) : List StateId := s.edges.flatMap Prod.snd

/-- The edges that consume characters. -/
def charEdges (s : State) : List (Char × List StateId) :=
  s.edges.filterMap fun edge =>
    match edge.1 with
    | .epsilon => none
    | .char c => some (c, edge.2)

/-- Whether two states agree when the order of edges does not count. -/
def agrees (s t : State) : Bool :=
  s.accepting == t.accepting && Unordered.sameMap Unordered.sameSet s.edges t.edges

/-- The state with the given edges, added one after the other. -/
def ofEdges (accepting : Bool) (edges : List (Symbol × StateId)) : State :=
  edges.foldl (fun s edge => s.connect edge.1 edge.2) (new accepting)

@[simp] theorem targets_new (accepting : Bool) (symbol : Symbol) :
    (new accepting).targets symbol = [] := rfl

@[simp] theorem accepting_connect (s : State) (symbol : Symbol) (target : StateId) :
    (s.connect symbol target).accepting = s.accepting := rfl

/-- The targets of a label are extended at the end, and those of the other labels stay. -/
theorem targets_connect (s : State) (symbol : Symbol) (target : StateId) (label : Symbol) :
    (s.connect symbol target).targets label =
      if label = symbol ∧ target ∉ s.targets symbol then s.targets symbol ++ [target]
      else s.targets label := by
  unfold connect targets
  induction s.edges with
  | nil => grind [addTarget]
  | cons edge edges ih => grind [addTarget]

end State

end PatternAutomata
