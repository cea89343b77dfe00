import Mathlib.Data.List.TakeWhile
import Mathlib.Logic.Relation
import Mathlib.Tactic.ByContra
import PatternAutomata.Walk

/-!
# What walks enter

A walk enters exactly the nodes that can be reached from its roots, provided that its capacity lets
it go on until no node waits.

`Walk.Invariant` says what every step of a walk keeps: whatever is entered or waits can be reached,
and whatever an entered node leads to is entered or waits. When no node waits any more, the entered
nodes are therefore closed under successors. A walk stops early only after it has entered as many
nodes as its capacity says (`Walk.step?_run`), and it enters no node twice, so that a bound on the
lists of distinct nodes bounds the walk (`closed_preorder_of_bound`).
-/

namespace PatternAutomata

variable {α : Type}

/-- A node can be reached from another one along the edges of a graph. -/
def Reaches (next : α → List α) : α → α → Prop := Relation.ReflTransGen fun a b => b ∈ next a

/-- Some nodes contain the roots and all their own successors. -/
structure Closed (next : α → List α) (roots nodes : List α) : Prop where
  roots : ∀ r ∈ roots, r ∈ nodes
  next : ∀ a ∈ nodes, ∀ b ∈ next a, b ∈ nodes

/-- What can be reached from a closed set of nodes belongs to it. -/
lemma Reaches.mem_of_closed {next : α → List α} {S : Set α}
    (closed : ∀ a ∈ S, ∀ b ∈ next a, b ∈ S) {a b : α} (h : Reaches next a b) (ha : a ∈ S) :
    b ∈ S := by
  induction h with
  | refl => exact ha
  | tail _ edge ih => exact closed _ ih _ edge

namespace Walk

variable [Ord α]

/-- What a walk from some roots keeps. -/
structure Invariant (next : α → List α) (roots : List α) (w : Walk α) : Prop where
  /-- Whatever has been entered or waits can be reached. -/
  reached : ∀ a, a ∈ w.trail.toList ∨ a ∈ w.pending → ∃ r ∈ roots, Reaches next r a
  /-- The roots have been entered or wait. -/
  roots : ∀ r ∈ roots, r ∈ w.trail.toList ∨ r ∈ w.pending
  /-- The successors of what has been entered have been entered or wait. -/
  frontier : ∀ a ∈ w.trail.toList, ∀ b ∈ next a, b ∈ w.trail.toList ∨ b ∈ w.pending

/-- A walk that starts has entered nothing, and its roots wait. -/
lemma invariant_start (next : α → List α) (roots : List α) :
    (start roots).Invariant next roots where
  reached a ha := ⟨a, by simpa [start] using ha, .refl⟩
  roots r hr := .inr hr
  frontier a ha := by simp [start] at ha

variable [Std.TransOrd α] [Std.LawfulEqOrd α]
variable {next : α → List α} {roots : List α} {w w' : Walk α}

/-! ### Single steps -/

/-- A step enters the first waiting node that is new and puts its successors before the others. -/
lemma step?_eq_some (h : w.step? next = some w') :
    ∃ skipped a rest, w.pending = skipped ++ a :: rest ∧ (∀ s ∈ skipped, s ∈ w.trail.toList) ∧
      a ∉ w.trail.toList ∧ w'.trail.toList = w.trail.toList ++ [a] ∧
      w'.pending = next a ++ rest := by
  unfold step? at h
  split at h
  · cases h
  · rename_i a rest pending
    cases h
    have new : ¬w.trail.has a = true := by
      have := List.head?_dropWhile_not w.trail.has w.pending
      simp_all
    refine ⟨w.pending.takeWhile w.trail.has, a, rest, ?_, ?_, ?_, ?_, rfl⟩
    · rw [← pending, List.takeWhile_append_dropWhile]
    · intro s hs
      exact Trail.has_iff.1 (List.mem_takeWhile_imp hs)
    · rwa [Trail.has_iff] at new
    · rw [Trail.toList_visit, if_neg new]

/-- There is no step when all waiting nodes have been entered. -/
lemma step?_eq_none (h : w.step? next = none) : ∀ a ∈ w.pending, a ∈ w.trail.toList := by
  unfold step? at h
  split at h
  · rename_i pending
    intro a ha
    exact Trail.has_iff.1 (List.dropWhile_eq_nil_iff.1 pending a ha)
  · cases h

/-! ### Whole walks -/

/-- Nothing that was entered or waited is lost by a step. -/
lemma mem_of_step? (h : w.step? next = some w') {a : α}
    (ha : a ∈ w.trail.toList ∨ a ∈ w.pending) : a ∈ w'.trail.toList ∨ a ∈ w'.pending := by
  obtain ⟨skipped, b, rest, pending, old, -, trail', pending'⟩ := step?_eq_some h
  rw [pending, List.mem_append, List.mem_cons] at ha
  rw [trail', pending', List.mem_append, List.mem_append, List.mem_singleton]
  rcases ha with ha | ha | rfl | ha
  · exact .inl (.inl ha)
  · exact .inl (.inl (old a ha))
  · exact .inl (.inr rfl)
  · exact .inr (.inr ha)

/-- A step keeps the invariant. -/
lemma Invariant.step (inv : w.Invariant next roots) (h : w.step? next = some w') :
    w'.Invariant next roots := by
  obtain ⟨skipped, a, rest, pending, -, -, trail', pending'⟩ := step?_eq_some h
  have waiting : a ∈ w.pending := by simp [pending]
  refine ⟨fun b hb => ?_, fun r hr => mem_of_step? h (inv.roots r hr), fun b hb c hc => ?_⟩
  · rw [trail', pending', List.mem_append, List.mem_append, List.mem_singleton] at hb
    rcases hb with (hb | rfl) | hb | hb
    · exact inv.reached b (.inl hb)
    · exact inv.reached b (.inr waiting)
    · obtain ⟨r, hr, path⟩ := inv.reached a (.inr waiting)
      exact ⟨r, hr, path.tail hb⟩
    · exact inv.reached b (.inr (by simp [pending, hb]))
  · rw [trail', List.mem_append, List.mem_singleton] at hb
    rcases hb with hb | rfl
    · exact mem_of_step? h (inv.frontier b hb c hc)
    · rw [pending']
      exact .inr (List.mem_append_left _ hc)

/-- A run keeps the invariant. -/
lemma Invariant.run (inv : w.Invariant next roots) (capacity : Nat) :
    (w.run next capacity).Invariant next roots := by
  induction capacity generalizing w with
  | zero => exact inv
  | succ capacity ih =>
    unfold Walk.run
    split
    · exact inv
    · rename_i w' step
      exact ih (inv.step step)

/-- A run ends when no step is left, or else it has entered as many nodes as it may. -/
lemma step?_run (w : Walk α) (next : α → List α) (capacity : Nat) :
    (w.run next capacity).step? next = none ∨
      (w.run next capacity).trail.toList.length = w.trail.toList.length + capacity := by
  induction capacity generalizing w with
  | zero => exact .inr rfl
  | succ capacity ih =>
    unfold Walk.run
    split
    · rename_i stop
      exact .inl stop
    · rename_i w' step
      obtain ⟨_, _, _, _, _, _, trail', _⟩ := step?_eq_some step
      rcases ih w' with stop | full
      · exact .inl stop
      · right
        rw [full, trail', List.length_append, List.length_singleton]
        omega

/-- A run enters no more nodes than its capacity says. -/
lemma length_run_le (w : Walk α) (next : α → List α) (capacity : Nat) :
    (w.run next capacity).trail.toList.length ≤ w.trail.toList.length + capacity := by
  induction capacity generalizing w with
  | zero => exact Nat.le_add_right _ _
  | succ capacity ih =>
    unfold Walk.run
    split
    · exact Nat.le_add_right _ _
    · rename_i w' step
      obtain ⟨_, _, _, _, _, _, trail', _⟩ := step?_eq_some step
      have bound := ih w'
      rw [trail', List.length_append, List.length_singleton] at bound
      omega

/-- A walk that cannot go on stays as it is. -/
lemma run_of_stop (stop : w.step? next = none) (capacity : Nat) : w.run next capacity = w := by
  cases capacity with
  | zero => rfl
  | succ capacity => rw [run, stop]

/-- A run that has come to its end is not changed by more capacity. -/
lemma run_add_of_stop {capacity : Nat} (stop : (w.run next capacity).step? next = none)
    (more : Nat) : w.run next (capacity + more) = w.run next capacity := by
  induction capacity generalizing w with
  | zero =>
    rw [Nat.zero_add]
    exact run_of_stop stop more
  | succ capacity ih =>
    rw [Nat.succ_add, run, run]
    rw [run] at stop
    cases step : w.step? next with
    | none => rfl
    | some v =>
      rw [step] at stop
      exact ih stop

/-- What has been entered stays so, in its order. -/
lemma prefix_run (w : Walk α) (next : α → List α) (capacity : Nat) :
    w.trail.toList <+: (w.run next capacity).trail.toList := by
  induction capacity generalizing w with
  | zero => exact List.prefix_rfl
  | succ capacity ih =>
    unfold Walk.run
    split
    · exact List.prefix_rfl
    · rename_i w' step
      obtain ⟨_, a, _, _, _, _, trail', _⟩ := step?_eq_some step
      refine List.IsPrefix.trans ⟨[a], ?_⟩ (ih w')
      exact trail'.symm

/-- When no step is left, the entered nodes are closed. -/
lemma Invariant.closed (inv : w.Invariant next roots) (stop : w.step? next = none) :
    Closed next roots w.trail.toList where
  roots r hr := (inv.roots r hr).elim id (step?_eq_none stop r)
  next a ha b hb := (inv.frontier a ha b hb).elim id (step?_eq_none stop b)

end Walk

/-! ### What a walk enters -/

section Preorder

variable [Ord α] [Std.TransOrd α] [Std.LawfulEqOrd α]
variable {next : α → List α} {capacity : Nat} {roots : List α}

/-- A walk enters no node twice. -/
lemma nodup_preorder (next : α → List α) (capacity : Nat) (roots : List α) :
    (preorder next capacity roots).Nodup := Trail.nodup_toList _

/-- A walk from one root enters it first. -/
lemma head?_preorder (next : α → List α) (capacity : Nat) (a : α) :
    (preorder next (capacity + 1) [a]).head? = some a := by
  have step : (Walk.start [a]).step? next = some ⟨Trail.empty.visit a, next a ++ []⟩ := by
    have new : (Trail.empty : Trail α).has a = false := by
      rw [Bool.eq_false_iff, ne_eq, Trail.has_iff, Trail.toList_empty]
      exact List.not_mem_nil
    simp [Walk.step?, Walk.start, new]
  obtain ⟨rest, hrest⟩ := Walk.prefix_run ⟨Trail.empty.visit a, next a ++ []⟩ next capacity
  have first : (Trail.empty.visit a).toList = [a] := by
    simp [Trail.toList_visit]
  rw [preorder, Walk.run, step, ← hrest, first]
  rfl

/-- Whatever a walk enters can be reached from its roots. -/
lemma reaches_of_mem_preorder {a : α} (h : a ∈ preorder next capacity roots) :
    ∃ r ∈ roots, Reaches next r a :=
  ((Walk.invariant_start next roots).run capacity).reached a (.inl h)

/-- A walk enters at most as many nodes as its capacity says, and enters a closed set of nodes if it
enters fewer. -/
lemma closed_preorder_or_length_eq (next : α → List α) (capacity : Nat) (roots : List α) :
    Closed next roots (preorder next capacity roots) ∨
      (preorder next capacity roots).length = capacity := by
  rcases Walk.step?_run (Walk.start roots) next capacity with stop | full
  · exact .inl (((Walk.invariant_start next roots).run capacity).closed stop)
  · right
    simpa [preorder, Walk.start] using full

/-- A walk with room left enters the same nodes with any greater capacity. -/
lemma preorder_eq_of_length_lt {capacity' : Nat}
    (room : (preorder next capacity roots).length < capacity) (le : capacity ≤ capacity') :
    preorder next capacity' roots = preorder next capacity roots := by
  obtain ⟨more, rfl⟩ := Nat.exists_eq_add_of_le le
  rcases Walk.step?_run (Walk.start roots) next capacity with stop | full
  · rw [preorder, Walk.run_add_of_stop stop, preorder]
  · have : (preorder next capacity roots).length = capacity := by
      simpa [preorder, Walk.start] using full
    omega

/-- A walk whose capacity is no less than the number of nodes in a closed set around its roots
enters a closed set of nodes. -/
lemma closed_preorder_of_bound {S : Set α} (hroots : ∀ r ∈ roots, r ∈ S)
    (hnext : ∀ a ∈ S, ∀ b ∈ next a, b ∈ S)
    (bound : ∀ l : List α, l.Nodup → (∀ a ∈ l, a ∈ S) → l.length ≤ capacity) :
    Closed next roots (preorder next capacity roots) := by
  have inside : ∀ a, (∃ r ∈ roots, Reaches next r a) → a ∈ S := by
    rintro a ⟨r, hr, path⟩
    exact path.mem_of_closed hnext (hroots r hr)
  rcases closed_preorder_or_length_eq next capacity roots with closed | full
  · exact closed
  · -- All nodes of `S` have been entered: a further one would make a list that is too long.
    have all : ∀ a ∈ S, a ∈ preorder next capacity roots := by
      intro a ha
      by_contra new
      have := bound (a :: preorder next capacity roots)
        (List.nodup_cons.2 ⟨new, nodup_preorder next capacity roots⟩) (by
          intro b hb
          rcases List.mem_cons.1 hb with rfl | hb
          · exact ha
          · exact inside b (reaches_of_mem_preorder hb))
      rw [List.length_cons] at this
      omega
    refine ⟨fun r hr => all r (hroots r hr), fun a ha b hb => all b (hnext a ?_ b hb)⟩
    exact inside a (reaches_of_mem_preorder ha)

/-- A walk that enters a closed set of nodes enters all nodes that can be reached, and no other. -/
lemma mem_preorder_iff (closed : Closed next roots (preorder next capacity roots)) (a : α) :
    a ∈ preorder next capacity roots ↔ ∃ r ∈ roots, Reaches next r a := by
  refine ⟨reaches_of_mem_preorder, ?_⟩
  rintro ⟨r, hr, path⟩
  exact path.mem_of_closed (S := {a | a ∈ preorder next capacity roots}) closed.next
    (closed.roots r hr)

end Preorder

end PatternAutomata
