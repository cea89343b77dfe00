import Mathlib.Data.Prod.Lex
import PatternAutomata.Proofs.DepthFirst

/-!
# Loops over a stack

A walk keeps a list of waiting nodes and passes over those that it has entered before. The same can
be done with a stack, one node at a time: a turn takes the node on top, drops it if it has been
entered, and otherwise enters it and puts its successors on the stack, the last one first, so that
the first one comes to lie on top. A node may lie on the stack several times, and every one of these
places may turn out to be the one from which it is entered.

A loop that has entered `k` nodes has nevertheless entered the nodes of a walk of capacity `k`, in
the same order, and its stack holds what waits for that walk but for nodes that have been entered
(`StackLoop.Invariant`). So what is known of walks holds of loops too. The loop ends when only so
many nodes can be reached: a turn leaves fewer nodes to enter, or as many and a lower stack
(`StackLoop.rank`). When the stack is empty, the loop has entered the nodes of the recursive
depth-first walk (`StackLoop.Invariant.entered_eq_depthFirst`).
-/

namespace PatternAutomata

/-! ### Walks, one step at a time -/

namespace Walk

variable {α : Type} [Ord α] [Std.TransOrd α] [Std.LawfulEqOrd α] {next : α → List α}

/-- More capacity means a further step at the end of a run. -/
lemma run_succ_of_step? {w w' : Walk α} {capacity : ℕ}
    (step : (w.run next capacity).step? next = some w') : w.run next (capacity + 1) = w' := by
  induction capacity generalizing w with
  | zero =>
    rw [run] at step
    rw [run, step]
    rfl
  | succ capacity ih =>
    rw [run]
    cases first : w.step? next with
    | none =>
      rw [run_of_stop first, first] at step
      cases step
    | some v =>
      rw [run, first] at step
      exact ih step

/-- A step passes over the waiting nodes that have been entered. -/
lemma step?_of_pending {w : Walk α} {skipped rest : List α} {a : α}
    (pending : w.pending = skipped ++ a :: rest) (old : ∀ s ∈ skipped, s ∈ w.trail.toList)
    (new : a ∉ w.trail.toList) : w.step? next = some ⟨w.trail.visit a, next a ++ rest⟩ := by
  have dropped : w.pending.dropWhile w.trail.has = a :: rest := by
    rw [pending, List.dropWhile_append_of_pos fun s hs => Trail.has_iff.2 (old s hs),
      List.dropWhile_cons_of_neg (mt Trail.has_iff.1 new)]
  rw [step?, dropped]

/-- There is no step when everything that waits has been entered. -/
lemma step?_of_subset {w : Walk α} (old : ∀ a ∈ w.pending, a ∈ w.trail.toList) :
    w.step? next = none := by
  rw [step?, List.dropWhile_eq_nil_iff.2 fun a ha => Trail.has_iff.2 (old a ha)]

end Walk

/-! ### The loop -/

/-- What a loop over a stack has done so far. -/
structure StackLoop (α : Type) where
  /-- The nodes that have been entered, in this order. -/
  entered : List α
  /-- The nodes on the stack, the one on top first. -/
  stack : List α

namespace StackLoop

variable {α : Type}

/-- In the beginning one node lies on the stack. -/
def start (root : α) : StackLoop α := ⟨[], [root]⟩

/-- Puts nodes on a stack, one after the other. -/
def push (stack nodes : List α) : List α := nodes.foldl (fun stack a => a :: stack) stack

/-- Nodes that are put on a stack in the opposite order come to lie in their own order. -/
@[simp] lemma push_reverse (stack nodes : List α) : push stack nodes.reverse = nodes ++ stack := by
  rw [push, List.foldl_reverse]
  induction nodes with
  | nil => rfl
  | cons a nodes ih => rw [List.foldr_cons, ih, List.cons_append]

/-! ### Turns -/

section Turns

variable [DecidableEq α] {next : α → List α} {x y : StackLoop α} {a : α} {rest : List α}

/-- One turn of the loop, if a node lies on the stack: the node on top is entered unless it has been
entered before. -/
def turn? (next : α → List α) (x : StackLoop α) : Option (StackLoop α) :=
  match x.stack with
  | [] => none
  | a :: stack =>
    if a ∈ x.entered then some { x with stack }
    else some ⟨x.entered ++ [a], push stack (next a).reverse⟩

/-- Some turns of the loop lead from one point to another. -/
def Runs (next : α → List α) : StackLoop α → StackLoop α → Prop :=
  Relation.ReflTransGen fun x y => x.turn? next = some y

/-- The loop that starts with a node ends when it has entered some nodes, in this order. -/
def EndsWith (next : α → List α) (root : α) (nodes : List α) : Prop :=
  ∃ x, Runs next (start root) x ∧ x.turn? next = none ∧ x.entered = nodes

/-- A node that has been entered is dropped. -/
lemma turn?_of_mem (stack : x.stack = a :: rest) (old : a ∈ x.entered) :
    x.turn? next = some ⟨x.entered, rest⟩ := by
  rw [turn?, stack]
  exact if_pos old

/-- A node that has not been entered is entered, and its successors come to lie in its place. -/
lemma turn?_of_notMem (stack : x.stack = a :: rest) (new : a ∉ x.entered) :
    x.turn? next = some ⟨x.entered ++ [a], next a ++ rest⟩ := by
  rw [turn?, stack, ← push_reverse rest (next a)]
  exact if_neg new

/-- A turn drops the node on top if it has been entered, and enters it otherwise. -/
lemma turn?_eq_some (h : x.turn? next = some y) :
    ∃ a rest, x.stack = a :: rest ∧
      (a ∈ x.entered ∧ y = ⟨x.entered, rest⟩ ∨
        a ∉ x.entered ∧ y = ⟨x.entered ++ [a], next a ++ rest⟩) := by
  cases stack : x.stack with
  | nil =>
    rw [turn?, stack] at h
    cases h
  | cons a rest =>
    refine ⟨a, rest, rfl, ?_⟩
    by_cases old : a ∈ x.entered
    · rw [turn?_of_mem stack old, Option.some_inj] at h
      exact .inl ⟨old, h.symm⟩
    · rw [turn?_of_notMem stack old, Option.some_inj] at h
      exact .inr ⟨old, h.symm⟩

/-- The loop goes on while nodes lie on the stack. -/
lemma stack_of_turn?_eq_none (h : x.turn? next = none) : x.stack = [] := by
  unfold turn? at h
  split at h
  · assumption
  · split at h <;> cases h

/-- The number of nodes that are left when at most `bound` can be entered, and the height of the
stack. -/
def rank (bound : ℕ) (x : StackLoop α) : ℕ ×ₗ ℕ :=
  toLex (bound - x.entered.length, x.stack.length)

/-- A turn leaves fewer nodes, or as many and a lower stack. -/
lemma rank_turn {bound : ℕ} (h : x.turn? next = some y) (small : y.entered.length ≤ bound) :
    y.rank bound < x.rank bound := by
  obtain ⟨a, rest, stack, ⟨-, rfl⟩ | ⟨-, rfl⟩⟩ := turn?_eq_some h
  · refine Prod.Lex.right _ ?_
    rw [stack]
    exact Nat.lt_succ_self _
  · refine Prod.Lex.left _ _ ?_
    rw [List.length_append, List.length_singleton] at small ⊢
    omega

end Turns

/-! ### Loops and walks -/

variable [Ord α] [Std.TransOrd α] [Std.LawfulEqOrd α]
variable {next : α → List α} {root a : α} {x y : StackLoop α}

/-- What every turn keeps: the loop is where the walk is that has entered as many nodes. -/
structure Invariant (next : α → List α) (root : α) (x : StackLoop α) : Prop where
  entered : preorder next x.entered.length [root] = x.entered
  /-- What waits for the walk lies on the stack, unless it has been entered. -/
  pending : ∃ skipped, ((Walk.start [root]).run next x.entered.length).pending =
    skipped ++ x.stack ∧ ∀ s ∈ skipped, s ∈ x.entered

lemma invariant_start (next : α → List α) (root : α) : Invariant next root (start root) :=
  ⟨rfl, [], rfl, nofun⟩

namespace Invariant

/-- The walk has entered what the loop has entered. -/
lemma trail (inv : Invariant next root x) :
    ((Walk.start [root]).run next x.entered.length).trail.toList = x.entered := inv.entered

/-- No node is entered twice. -/
lemma nodup (inv : Invariant next root x) : x.entered.Nodup := by
  rw [← inv.entered]
  exact nodup_preorder next _ _

/-- Whatever has been entered or lies on the stack can be reached. -/
lemma reaches (inv : Invariant next root x) (h : a ∈ x.entered ∨ a ∈ x.stack) :
    Reaches next root a := by
  obtain ⟨skipped, pending, -⟩ := inv.pending
  have walk := (Walk.invariant_start next [root]).run x.entered.length
  have known : a ∈ ((Walk.start [root]).run next x.entered.length).trail.toList ∨
      a ∈ ((Walk.start [root]).run next x.entered.length).pending := by
    rw [inv.trail, pending, List.mem_append]
    exact h.imp_right .inr
  obtain ⟨r, hr, path⟩ := walk.reached a known
  obtain rfl := List.mem_singleton.1 hr
  exact path

/-- When the stack is empty, all that waits for the walk has been entered. -/
lemma pending_subset (inv : Invariant next root x) (done : x.stack = []) :
    ∀ s ∈ ((Walk.start [root]).run next x.entered.length).pending,
      s ∈ ((Walk.start [root]).run next x.entered.length).trail.toList := by
  obtain ⟨skipped, pending, passed⟩ := inv.pending
  rw [done, List.append_nil] at pending
  rwa [pending, inv.trail]

/-- When the stack is empty, the nodes that have been entered are closed under successors. -/
lemma closed (inv : Invariant next root x) (done : x.stack = []) :
    Closed next [root] x.entered := by
  have closed := ((Walk.invariant_start next [root]).run x.entered.length).closed
    (Walk.step?_of_subset (inv.pending_subset done))
  rwa [inv.trail] at closed

variable [DecidableEq α]

/-- One turn keeps the invariant. -/
lemma turn (inv : Invariant next root x) (h : x.turn? next = some y) : Invariant next root y := by
  obtain ⟨skipped, pending, passed⟩ := inv.pending
  obtain ⟨a, rest, stack, ⟨old, rfl⟩ | ⟨new, rfl⟩⟩ := turn?_eq_some h
  · refine ⟨inv.entered, skipped ++ [a], by rw [pending, stack, List.append_cons], ?_⟩
    intro s hs
    rcases List.mem_append.1 hs with hs | hs
    · exact passed s hs
    · obtain rfl := List.mem_singleton.1 hs
      exact old
  · have unseen : ¬((Walk.start [root]).run next x.entered.length).trail.has a = true := by
      rwa [Trail.has_iff, inv.trail]
    -- the walk passes over what has been entered and enters the node on top, too
    rw [stack] at pending
    rw [← inv.trail] at passed new
    have run := Walk.run_succ_of_step? (Walk.step?_of_pending pending passed new)
    refine ⟨?_, [], ?_, nofun⟩
    · rw [preorder, List.length_append, List.length_singleton, run, Trail.toList_visit,
        if_neg unseen, inv.trail]
    · rw [List.length_append, List.length_singleton, run, List.nil_append]

/-- The invariant holds throughout the loop. -/
lemma of_runs (h : Runs next (start root) x) : Invariant next root x := by
  induction h with
  | refl => exact invariant_start next root
  | tail _ turn ih => exact ih.turn turn

/-- When the stack is empty, the loop has entered the nodes of the recursive depth-first walk. -/
lemma entered_eq_depthFirst {g : FiniteGraph α} (inv : Invariant g.next root x)
    (done : x.stack = []) : x.entered = g.depthFirst ∅ [root] := by
  have whole := (Walk.start [root]).trail_append_depthFirst_run (g := g) x.entered.length
  rw [g.depthFirst_of_subset fun a ha => List.mem_toFinset.2 (inv.pending_subset done a ha),
    List.append_nil, inv.trail] at whole
  exact whole

/-- The loop ends if only so many nodes can be reached. -/
lemma exists_runs {bound : ℕ} (inv : Invariant next root x)
    (few : ∀ l : List α, l.Nodup → (∀ a ∈ l, Reaches next root a) → l.length ≤ bound) :
    ∃ y, Runs next x y ∧ y.turn? next = none := by
  induction rank : x.rank bound using WellFoundedLT.induction generalizing x with
  | ind rank ih =>
    cases turn : x.turn? next with
    | none => exact ⟨x, .refl, turn⟩
    | some z =>
      have inv' := inv.turn turn
      have small := few z.entered inv'.nodup fun a ha => inv'.reaches (.inl ha)
      obtain ⟨y, runs, done⟩ := ih _ (rank ▸ rank_turn turn small) inv' rfl
      exact ⟨y, .head turn runs, done⟩

end Invariant

end StackLoop

end PatternAutomata
