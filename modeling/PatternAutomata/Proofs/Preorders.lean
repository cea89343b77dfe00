import PatternAutomata.Proofs.Built
import PatternAutomata.Proofs.Edits
import PatternAutomata.Proofs.StackLoop

/-!
# Closures and discoveries in preorder

The closure of a state and the discovery from it walk along edges of an arena: the closure along
those that consume nothing, in the order in which they were added, and the discovery along all of
them, label by label in the order in which the labels were first used. Both can be found by a loop
over a stack, on which a state may lie several times and which may enter it by a longer way than the
one by which it has been seen first.

Nevertheless both list the states in the order in which the recursive depth-first walk along the
same edges enters them (`Arena.closure_discovery_depthFirst`). All that the proof uses of the edges
is that they are some edges of each state, so it is given once for both
(`Arena.Bounded.preorder_graph`).
-/

namespace PatternAutomata

/-- The targets of a label are targets of edges. -/
lemma State.targets_subset_successors (symbol : Symbol) (s : State) :
    s.targets symbol ⊆ s.successors := fun _ => mem_successors_of_mem_targets

namespace Arena

variable {a : Arena} {id t : StateId} {choose : State → List StateId}

/-! ### The graphs of an arena -/

/-- Finitely many states can be reached along some of the edges of an arena. -/
lemma finite_reaches (edges : ∀ s, choose s ⊆ s.successors) (a : Arena) (id : StateId) :
    {t | Reaches (fun s => choose (a.state s)) id t}.Finite := by
  have targets : (⋃ s ∈ Finset.range a.size, {t | t ∈ (a.state s).successors}).Finite :=
    (Finset.range a.size).finite_toSet.biUnion fun s _ => (a.state s).successors.finite_toSet
  refine (targets.insert id).subset fun t reaches => ?_
  refine reaches.mem_of_closed (fun s _ t edge => .inr ?_) (Set.mem_insert _ _)
  have edge := edges _ edge
  refine Set.mem_biUnion (Finset.mem_range.2 ?_) edge
  by_contra missing
  rw [state_of_size_le (Nat.not_lt.1 missing)] at edge
  cases edge

/-- The states of an arena with some of their edges. -/
def graph (a : Arena) (choose : State → List StateId) (edges : ∀ s, choose s ⊆ s.successors) :
    FiniteGraph StateId where
  next id := choose (a.state id)
  finite id := finite_reaches edges a id

/-- The states of an arena with the edges that consume nothing. -/
def silentGraph (a : Arena) : FiniteGraph StateId :=
  a.graph (·.targets .epsilon) (State.targets_subset_successors .epsilon)

/-- The states of an arena with all edges, label by label. -/
def edgeGraph (a : Arena) : FiniteGraph StateId :=
  a.graph (fun s => s.edges.flatMap Prod.snd) fun s => List.Subset.refl s.successors

/-! ### Preorders of states -/

/-- Edges lead from states to states when no target is missing. -/
lemma Bounded.lt_of_reaches (bounded : a.Bounded) (small : id < a.size)
    (edges : ∀ s, choose s ⊆ s.successors) (reaches : Reaches (a.graph choose edges).next id t) :
    t < a.size :=
  reaches.mem_of_closed (S := {s | s < a.size}) (fun s hs t edge => bounded s hs t (edges _ edge))
    small

/-- No more states can be reached than there are. -/
lemma Bounded.length_le (bounded : a.Bounded) (small : id < a.size)
    (edges : ∀ s, choose s ⊆ s.successors) (l : List StateId) (nodup : l.Nodup)
    (reaches : ∀ t ∈ l, Reaches (a.graph choose edges).next id t) : l.length ≤ a.size :=
  length_le_of_forall_lt nodup fun t ht => bounded.lt_of_reaches small edges (reaches t ht)

/-- A walk from a state enters the states in the order of the recursive depth-first walk, and so
does a loop over a stack. -/
lemma Bounded.preorder_graph (bounded : a.Bounded) (small : id < a.size)
    (edges : ∀ s, choose s ⊆ s.successors) :
    preorder (a.graph choose edges).next (a.size + 1) [id] =
        (a.graph choose edges).depthFirst ∅ [id] ∧
      StackLoop.EndsWith (a.graph choose edges).next id
        ((a.graph choose edges).depthFirst ∅ [id]) := by
  constructor
  · refine preorder_eq_depthFirst (Nat.le_succ_of_le ?_)
    refine bounded.length_le small edges _ (FiniteGraph.nodup_depthFirst _ _) fun t mem => ?_
    obtain ⟨root, hroot, reaches⟩ := FiniteGraph.reachable_of_mem_depthFirst mem
    obtain rfl := List.mem_singleton.1 hroot
    exact reaches
  · have start := StackLoop.invariant_start (a.graph choose edges).next id
    obtain ⟨x, runs, done⟩ := start.exists_runs (bounded.length_le small edges)
    have inv := StackLoop.Invariant.of_runs runs
    exact ⟨x, runs, done, inv.entered_eq_depthFirst (StackLoop.stack_of_turn?_eq_none done)⟩

/-- In an arena without missing targets the closure of a state and the discovery from it list the
states in the order of the recursive depth-first walks, along the edges that consume nothing and
along all edges. The loops over a stack end with the same lists. -/
theorem closure_discovery_depthFirst (bounded : a.Bounded) (small : id < a.size) :
    (a.closure id = a.silentGraph.depthFirst ∅ [id] ∧
      StackLoop.EndsWith (fun s => (a.state s).targets .epsilon) id (a.closure id)) ∧
    a.discovery id = a.edgeGraph.depthFirst ∅ [id] ∧
      StackLoop.EndsWith (fun s => (a.state s).successors) id (a.discovery id) := by
  obtain ⟨closure, closing⟩ : a.closure id = a.silentGraph.depthFirst ∅ [id] ∧
      StackLoop.EndsWith a.silentGraph.next id (a.silentGraph.depthFirst ∅ [id]) :=
    bounded.preorder_graph small (State.targets_subset_successors .epsilon)
  obtain ⟨discovery, discovering⟩ : a.discovery id = a.edgeGraph.depthFirst ∅ [id] ∧
      StackLoop.EndsWith a.edgeGraph.next id (a.edgeGraph.depthFirst ∅ [id]) :=
    bounded.preorder_graph small fun s => List.Subset.refl s.successors
  rw [← closure] at closing
  rw [← discovery] at discovering
  exact ⟨⟨closure, closing⟩, discovery, discovering⟩

/-- An arena in which states wait on the stack but are entered by a longer way. -/
def shortcutArena : Arena :=
  ⟨#[⟨[(.char 'a', [2]), (.epsilon, [1, 3])], false⟩, ⟨[(.epsilon, [2])], false⟩,
    ⟨[(.epsilon, [3, 0])], false⟩, ⟨[(.epsilon, [1])], true⟩]⟩

theorem closure_discovery_depthFirst_shortcut :
    shortcutArena.Bounded ∧ 0 < shortcutArena.size ∧
      shortcutArena.silentGraph.depthFirst ∅ [0] = [0, 1, 2, 3] ∧
      shortcutArena.edgeGraph.depthFirst ∅ [0] = [0, 2, 3, 1] ∧
      StackLoop.EndsWith (fun s => (shortcutArena.state s).successors) 0 [0, 2, 3, 1] := by
  have bounded : shortcutArena.Bounded := by
    have : ∀ s < 4, ∀ t ∈ (shortcutArena.state s).successors, t < 4 := by decide
    exact this
  have small : 0 < shortcutArena.size := by decide
  have closure : shortcutArena.closure 0 = [0, 1, 2, 3] := by decide +kernel
  have discovery : shortcutArena.discovery 0 = [0, 2, 3, 1] := by decide +kernel
  obtain ⟨⟨walk, -⟩, walk', loop⟩ := closure_discovery_depthFirst bounded small
  rw [closure] at walk
  rw [discovery] at walk' loop
  exact ⟨bounded, small, walk.symm, walk'.symm, loop⟩

end Arena

end PatternAutomata
