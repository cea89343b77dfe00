import Mathlib.Data.Set.Card
import Mathlib.Data.Set.Finite.Lattice
import PatternAutomata.Proofs.Walk

/-!
# Depth-first walks by recursion

A walk keeps the nodes that wait in one list. The same order can be had by recursion: a visit to a
node that has been marked enters nothing, and a visit to any other node marks it and enters it,
visits its successors one after the other, and hands on all that has been marked on the way. The
recursion ends when only finitely many nodes can be reached from each node (`FiniteGraph`).

What has been entered and what the recursion would still enter from the waiting nodes is the same
list before and after each step of a walk (`Walk.trail_append_depthFirst_step`). A walk therefore
enters the first nodes of the recursive one, as many as its capacity says
(`preorder_eq_take_depthFirst`).
-/

namespace PatternAutomata

/-- A graph in which only finitely many nodes can be reached from each node. -/
structure FiniteGraph (α : Type) where
  next : α → List α
  finite : ∀ a, {b | Reaches next a b}.Finite

namespace FiniteGraph

variable {α : Type} (g : FiniteGraph α) {marked marked' : Finset α} {a : α} {as bs : List α}

/-! ### The recursion -/

/-- The nodes that can be reached from some nodes. -/
def reachable (as : List α) : Set α := {b | ∃ a ∈ as, Reaches g.next a b}

lemma finite_reachable (as : List α) : (g.reachable as).Finite := by
  have union : g.reachable as = ⋃ a ∈ {a | a ∈ as}, {b | Reaches g.next a b} := by
    ext b
    simp [reachable]
  rw [union]
  exact Set.Finite.biUnion as.finite_toSet fun a _ => g.finite a

/-- The number of nodes that can be reached from some nodes and have not been marked. -/
noncomputable def unmarked (marked : Finset α) (as : List α) : ℕ :=
  (g.reachable as \ marked).ncard

/-- There are no more nodes to mark when more have been marked or fewer can be reached. -/
lemma unmarked_le (more : marked ⊆ marked') (fewer : g.reachable bs ⊆ g.reachable as) :
    g.unmarked marked' bs ≤ g.unmarked marked as :=
  Set.ncard_le_ncard (Set.sdiff_subset_sdiff fewer (Finset.coe_subset.2 more))
    (g.finite_reachable as).sdiff

/-- Nodes that can be reached lead to others that can be reached. -/
lemma reachable_subset (h : ∀ b ∈ bs, b ∈ g.reachable as) : g.reachable bs ⊆ g.reachable as := by
  rintro c ⟨b, hb, reaches⟩
  obtain ⟨a, ha, reaches'⟩ := h b hb
  exact ⟨a, ha, reaches'.trans reaches⟩

lemma mem_reachable (h : a ∈ as) : a ∈ g.reachable as := ⟨a, h, .refl⟩

lemma mem_reachable_of_mem_next {b : α} (h : a ∈ as) (edge : b ∈ g.next a) : b ∈ g.reachable as :=
  ⟨a, h, .single edge⟩

lemma reachable_tail_subset : g.reachable as ⊆ g.reachable (a :: as) :=
  g.reachable_subset fun _ hb => g.mem_reachable (List.mem_cons_of_mem a hb)

variable [DecidableEq α]

/-- There are fewer nodes to mark once a node has been marked. -/
lemma unmarked_lt (new : a ∉ marked) (fewer : g.reachable bs ⊆ g.reachable (a :: as)) :
    g.unmarked (insert a marked) bs < g.unmarked marked (a :: as) := by
  refine Set.ncard_lt_ncard (Set.ssubset_iff_of_subset ?_ |>.2 ⟨a, ?_, ?_⟩)
    (g.finite_reachable _).sdiff
  · exact Set.sdiff_subset_sdiff fewer (Finset.coe_subset.2 (Finset.subset_insert a marked))
  · exact ⟨g.mem_reachable List.mem_cons_self, new⟩
  · exact fun h => h.2 (Finset.mem_insert_self a marked)

/-- The nodes that a recursive depth-first walk enters from some nodes, one after the other, when
some nodes have been marked before: each is marked when it is entered, and what its successors lead
to is entered before the nodes that come after it. -/
def depthFirst (g : FiniteGraph α) (marked : Finset α) : List α → List α
  | [] => []
  | a :: as =>
    if a ∈ marked then g.depthFirst marked as
    else
      let below := g.depthFirst (insert a marked) (g.next a)
      a :: below ++ g.depthFirst (insert a marked ∪ below.toFinset) as
termination_by as => (g.unmarked marked as, as.length)
decreasing_by
  · exact .right' _ (g.unmarked_le subset_rfl g.reachable_tail_subset) (Nat.lt_succ_self _)
  · refine .left _ _ (g.unmarked_lt ‹a ∉ marked› (g.reachable_subset fun _ hb => ?_))
    exact g.mem_reachable_of_mem_next List.mem_cons_self hb
  · refine .right' _ (g.unmarked_le ?_ g.reachable_tail_subset) (Nat.lt_succ_self _)
    exact (Finset.subset_insert a marked).trans Finset.subset_union_left

lemma depthFirst_nil (marked : Finset α) : g.depthFirst marked [] = [] := by rw [depthFirst]

/-- A node that has been marked is not entered. -/
lemma depthFirst_cons_of_mem (old : a ∈ marked) :
    g.depthFirst marked (a :: as) = g.depthFirst marked as := by
  rw [depthFirst, if_pos old]

/-- A node that has not been marked is entered before what its successors lead to. -/
lemma depthFirst_cons_of_notMem (new : a ∉ marked) :
    g.depthFirst marked (a :: as) =
      a :: g.depthFirst (insert a marked) (g.next a) ++
        g.depthFirst (insert a marked ∪ (g.depthFirst (insert a marked) (g.next a)).toFinset)
          as := by
  rw [depthFirst, if_neg new]

/-- Nodes are entered one part after the other. -/
lemma depthFirst_append (marked : Finset α) (as bs : List α) :
    g.depthFirst marked (as ++ bs) = g.depthFirst marked as ++
      g.depthFirst (marked ∪ (g.depthFirst marked as).toFinset) bs := by
  induction as generalizing marked with
  | nil => simp [depthFirst_nil]
  | cons a as ih =>
    rw [List.cons_append]
    by_cases old : a ∈ marked
    · rw [g.depthFirst_cons_of_mem old, g.depthFirst_cons_of_mem old, ih]
    · rw [g.depthFirst_cons_of_notMem old, g.depthFirst_cons_of_notMem old, ih,
        List.append_assoc]
      congr 3
      ext b
      simp only [Finset.mem_union, Finset.mem_insert, List.mem_toFinset, List.mem_append,
        List.mem_cons]
      tauto

/-- A node that has not been marked is entered, and its successors come to stand before the nodes
that come after it. -/
lemma depthFirst_enter (new : a ∉ marked) :
    g.depthFirst marked (a :: as) = a :: g.depthFirst (insert a marked) (g.next a ++ as) := by
  rw [g.depthFirst_cons_of_notMem new, g.depthFirst_append, List.cons_append]

/-- Nodes that have been marked can be left out. -/
lemma depthFirst_filter_append {p : α → Bool} (dropped : ∀ b, p b = false → b ∈ marked) :
    g.depthFirst marked (as.filter p ++ bs) = g.depthFirst marked (as ++ bs) := by
  induction as generalizing marked with
  | nil => rfl
  | cons a as ih =>
    rw [List.cons_append]
    by_cases kept : p a = true
    · rw [List.filter_cons_of_pos kept, List.cons_append]
      by_cases old : a ∈ marked
      · rw [g.depthFirst_cons_of_mem old, g.depthFirst_cons_of_mem old, ih dropped]
      · rw [g.depthFirst_cons_of_notMem old, g.depthFirst_cons_of_notMem old]
        congr 1
        exact ih fun b hb => by simp [dropped b hb]
    · have old : a ∈ marked := dropped a (Bool.eq_false_iff.2 kept)
      rw [List.filter_cons_of_neg kept, g.depthFirst_cons_of_mem old, ih dropped]

/-- Nothing is entered where everything has been marked. -/
lemma depthFirst_of_subset (old : ∀ a ∈ as, a ∈ marked) : g.depthFirst marked as = [] := by
  induction as with
  | nil => exact g.depthFirst_nil marked
  | cons a as ih =>
    rw [List.forall_mem_cons] at old
    rw [g.depthFirst_cons_of_mem old.1, ih old.2]

end FiniteGraph

/-! ### Walks -/

section Walks

variable {α : Type} [Ord α] [Std.TransOrd α] [Std.LawfulEqOrd α] [DecidableEq α]
  {g : FiniteGraph α} {w w' : Walk α}

/-- A step of a walk enters the node that the recursion would enter first. -/
lemma Walk.trail_append_depthFirst_step (h : w.step? g.next = some w') :
    w'.trail.toList ++ g.depthFirst w'.trail.toList.toFinset w'.pending =
      w.trail.toList ++ g.depthFirst w.trail.toList.toFinset w.pending := by
  obtain ⟨skipped, a, rest, pending, old, new, trail', pending'⟩ := step?_eq_some h
  have nothing : g.depthFirst w.trail.toList.toFinset skipped = [] :=
    g.depthFirst_of_subset fun s hs => List.mem_toFinset.2 (old s hs)
  have marked : (w.trail.toList ++ [a]).toFinset = insert a w.trail.toList.toFinset := by
    ext b
    simp
  rw [pending, g.depthFirst_append _ skipped, nothing, List.nil_append, List.toFinset_nil,
    Finset.union_empty, g.depthFirst_enter (by simpa using new), trail', pending', marked,
    List.append_assoc, List.singleton_append]

/-- A run of a walk enters what the recursion would enter first. -/
lemma Walk.trail_append_depthFirst_run (w : Walk α) (capacity : ℕ) :
    (w.run g.next capacity).trail.toList ++
        g.depthFirst (w.run g.next capacity).trail.toList.toFinset
          (w.run g.next capacity).pending =
      w.trail.toList ++ g.depthFirst w.trail.toList.toFinset w.pending := by
  induction capacity generalizing w with
  | zero => rfl
  | succ capacity ih =>
    rw [run]
    split
    · rfl
    · rename_i w' step
      rw [ih w', trail_append_depthFirst_step step]

/-- A walk enters the first nodes of the recursive depth-first walk, as many as its capacity
says. -/
theorem preorder_eq_take_depthFirst (g : FiniteGraph α) (capacity : ℕ) (roots : List α) :
    preorder g.next capacity roots = (g.depthFirst ∅ roots).take capacity := by
  have whole := (Walk.start roots).trail_append_depthFirst_run (g := g) capacity
  have length := (Walk.start roots).length_run_le g.next capacity
  change preorder g.next capacity roots ++ _ = g.depthFirst ∅ roots at whole
  rw [← whole]
  rcases Walk.step?_run (Walk.start roots) g.next capacity with stop | full
  · -- nothing waits any more that has not been entered
    rw [g.depthFirst_of_subset fun a ha => List.mem_toFinset.2 (Walk.step?_eq_none stop a ha),
      List.append_nil, List.take_of_length_le]
    simpa [preorder, Walk.start] using length
  · have length : (preorder g.next capacity roots).length = capacity := by
      simpa [preorder, Walk.start] using full
    rw [List.take_append_of_le_length length.ge, List.take_of_length_le length.le]

/-- With enough capacity a walk is the recursive depth-first walk. -/
lemma preorder_eq_depthFirst {capacity : ℕ} {roots : List α}
    (enough : (g.depthFirst ∅ roots).length ≤ capacity) :
    preorder g.next capacity roots = g.depthFirst ∅ roots := by
  rw [preorder_eq_take_depthFirst, List.take_of_length_le enough]

/-- The recursive walk enters no node twice. -/
lemma FiniteGraph.nodup_depthFirst (g : FiniteGraph α) (roots : List α) :
    (g.depthFirst ∅ roots).Nodup := by
  rw [← preorder_eq_depthFirst le_rfl]
  exact nodup_preorder _ _ _

/-- Whatever the recursive walk enters can be reached from its roots. -/
lemma FiniteGraph.reachable_of_mem_depthFirst {roots : List α} {a : α}
    (h : a ∈ g.depthFirst ∅ roots) : a ∈ g.reachable roots := by
  rw [← preorder_eq_depthFirst le_rfl] at h
  exact reaches_of_mem_preorder h

end Walks

end PatternAutomata
