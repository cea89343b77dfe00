import Mathlib.Data.List.Perm.Subperm
import PatternAutomata.Automaton.Basic
import PatternAutomata.Proofs.Path

/-!
# Automata that are built

`Automaton.build` looks at the closures of all states and at the states that can be discovered, and
fails if one of them is missing. An automaton that is built has therefore all states that matter
(`Automaton.Built`), its closures and its order list exactly the states that can be reached, and the
other way round an arena without missing targets builds (`build_of_bounded`).
-/

namespace PatternAutomata

/-- Distinct numbers below a bound are at most as many as the bound says. -/
lemma length_le_of_forall_lt {l : List Nat} {n : Nat} (nodup : l.Nodup) (h : ∀ a ∈ l, a < n) :
    l.length ≤ n := by
  have sub : l ⊆ List.range n := fun a ha => List.mem_range.2 (h a ha)
  simpa using (List.subperm_of_subset nodup sub).length_le

namespace Arena

/-- All targets of the edges of an arena are states of it. -/
def Bounded (a : Arena) : Prop := a.ClosedUnder {s | s < a.size}

lemma bounded_empty : Arena.empty.Bounded := fun _ h => absurd h (Nat.not_lt_zero _)

variable {a : Arena} {id t : StateId}

/-- No state is missing when all are there. -/
lemma missing?_eq_none {ids : List StateId} : a.missing? ids = none ↔ ∀ t ∈ ids, t < a.size := by
  simp [missing?]

/-- A walk among the states of an arena that may enter one more node than there are states enters a
closed set of nodes. -/
lemma closed_preorder {next : StateId → List StateId} {roots : List StateId}
    (h : ∀ t ∈ preorder next (a.size + 1) roots, t < a.size) :
    Closed next roots (preorder next (a.size + 1) roots) := by
  rcases closed_preorder_or_length_eq next (a.size + 1) roots with closed | full
  · exact closed
  · have := length_le_of_forall_lt (nodup_preorder next (a.size + 1) roots) h
    omega

/-- A closure without missing states holds the states that are reached without consuming
anything. -/
lemma mem_closure_iff (h : ∀ t ∈ a.closure id, t < a.size) :
    t ∈ a.closure id ↔ a.Path id [] t := by
  rw [path_nil_iff]
  simpa [closure] using mem_preorder_iff (closed_preorder h) t

/-- A discovery without missing states holds the states that can be reached. -/
lemma mem_discovery_iff (h : ∀ t ∈ a.discovery id, t < a.size) :
    t ∈ a.discovery id ↔ a.Reach id t := by
  simpa [discovery, Reach] using mem_preorder_iff (closed_preorder h) t

end Arena

namespace Automaton

/-- What is checked of an automaton when it is built. -/
structure Built (nfa : Automaton) : Prop where
  closure_lt : ∀ id < nfa.size, ∀ t ∈ nfa.arena.closure id, t < nfa.size
  order_lt : ∀ id ∈ nfa.order, id < nfa.size

variable {f : Fragment} {a : Arena} {nfa : Automaton}

/-- Building a fragment succeeds exactly when no state is missing. -/
lemma build_eq_ok_iff :
    build f a = .ok nfa ↔ nfa = ⟨a, f.entry, f.exit⟩ ∧
      (∀ id < a.size, ∀ t ∈ a.closure id, t < a.size) ∧
        ∀ t ∈ a.discovery f.entry, t < a.size := by
  have none_missing : (a.ids.findSome? fun id => a.missing? (a.closure id)).or
      (a.missing? (a.discovery f.entry)) = none ↔
        (∀ id < a.size, ∀ t ∈ a.closure id, t < a.size) ∧
          ∀ t ∈ a.discovery f.entry, t < a.size := by
    simp [Arena.ids, Arena.missing?_eq_none]
  rw [← none_missing]
  unfold build
  split
  · rename_i id missing
    simp [missing]
  · rename_i none
    simp [none, eq_comm]

/-- The automaton of a fragment is built. -/
lemma Built.of_build (h : build f a = .ok nfa) : nfa.Built := by
  obtain ⟨rfl, closures, discovery⟩ := build_eq_ok_iff.1 h
  exact ⟨closures, discovery⟩

/-- A fragment of an arena without missing targets is built if its entry is a state. -/
lemma build_of_bounded (bounded : a.Bounded) (h : f.entry < a.size) :
    build f a = .ok ⟨a, f.entry, f.exit⟩ := by
  refine build_eq_ok_iff.2 ⟨rfl, fun id hid t ht => ?_, fun t ht => ?_⟩
  · obtain ⟨_, hr, path⟩ := reaches_of_mem_preorder ht
    obtain rfl := List.mem_singleton.1 hr
    exact (Arena.path_nil_iff.2 path).mem bounded hid
  · obtain ⟨_, hr, path⟩ := reaches_of_mem_preorder ht
    obtain rfl := List.mem_singleton.1 hr
    exact path.mem_of_closed bounded h

namespace Built

variable {id s t : StateId}

/-- The order of an automaton lists the states that can be reached. -/
lemma mem_order_iff (built : nfa.Built) : t ∈ nfa.order ↔ nfa.arena.Reach nfa.entry t :=
  Arena.mem_discovery_iff built.order_lt

/-- States that can be reached are not missing. -/
lemma lt_of_reach (built : nfa.Built) (h : nfa.arena.Reach nfa.entry t) : t < nfa.size :=
  built.order_lt t (built.mem_order_iff.2 h)

/-- The closure of a state holds the states that are reached from it without consuming anything. -/
lemma mem_closure_iff (built : nfa.Built) (h : id < nfa.size) :
    t ∈ nfa.arena.closure id ↔ nfa.arena.Path id [] t :=
  Arena.mem_closure_iff (built.closure_lt id h)

end Built

end Automaton

end PatternAutomata
