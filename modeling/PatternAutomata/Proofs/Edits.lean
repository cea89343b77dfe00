import PatternAutomata.Proofs.Path
import PatternAutomata.Fragment

/-!
# Edits of an arena

Constructions add states, add edges and change which states accept. This file says what each of
these edits does to the edges of an arena, to the states that accept, to what can be reached and to
the words between two states. A new state and a change of acceptance leave all edges as they are,
and an edge that consumes nothing changes the words by one equation (`words_connect`).
-/

namespace PatternAutomata

open scoped Computability

namespace Arena

/-- Adds an edge. -/
def connect (a : Arena) (s : StateId) (symbol : Symbol) (t : StateId) : Arena :=
  a.modify s (·.connect symbol t)

/-- Changes whether a state accepts. -/
def mark (a : Arena) (s : StateId) (accepting : Bool) : Arena :=
  a.modify s fun state => { state with accepting }

variable {a b : Arena} {r s t u x y : StateId} {symbol label : Symbol} {accepting : Bool}

@[simp] lemma size_connect : (a.connect s symbol t).size = a.size := size_modify ..

@[simp] lemma size_mark : (a.mark s accepting).size = a.size := size_modify ..

/-- A state that is not there is like a new one. -/
lemma state_of_size_le (h : a.size ≤ s) : a.state s = .new false := by
  simp only [size] at h
  simp [state, h]

/-- A state that is not there has no successors. -/
lemma successors_of_size_le (h : a.size ≤ s) : (a.state s).successors = [] := by
  rw [state_of_size_le h]
  rfl

/-! ### States that are not edited -/

lemma state_push_of_lt {new : State} (h : s < a.size) : (a.push new).state s = a.state s := by
  rw [state_push, if_neg h.ne]

lemma state_connect_of_ne (h : r ≠ s) : (a.connect s symbol t).state r = a.state r := by
  rw [connect, state_modify, if_neg fun both => h both.1.symm]

lemma state_mark_of_ne (h : r ≠ s) : (a.mark s accepting).state r = a.state r := by
  rw [mark, state_modify, if_neg fun both => h both.1.symm]

/-! ### Edges -/

@[simp] lemma edges_push : ((a.push (.new accepting)).state s).edges = (a.state s).edges := by
  rw [state_push]
  split
  · subst s
    rw [state_of_size_le le_rfl]
    rfl
  · rfl

@[simp] lemma edges_mark : ((a.mark s accepting).state r).edges = (a.state r).edges := by
  rw [mark, state_modify]
  split
  · rename_i h
    rw [← h.1]
  · rfl

@[simp] lemma successors_push :
    ((a.push (.new accepting)).state s).successors = (a.state s).successors := by
  simp [State.successors]

@[simp] lemma successors_mark :
    ((a.mark s accepting).state r).successors = (a.state r).successors := by
  simp [State.successors]

/-- The changed state has one more edge. -/
lemma state_connect (h : s < a.size) : (a.connect s symbol t).state r =
    if r = s then (a.state r).connect symbol t else a.state r := by
  rw [connect, state_modify]
  by_cases hr : s = r
  · subst hr
    simp [h]
  · simp [hr, Ne.symm hr]

/-- One target is added. -/
lemma mem_targets_connect (h : s < a.size) :
    u ∈ ((a.connect s symbol t).state r).targets label ↔
      u ∈ (a.state r).targets label ∨ r = s ∧ label = symbol ∧ u = t := by
  rw [state_connect h]
  split <;> simp [State.mem_targets_connect, *]

/-- One successor is added. -/
lemma mem_successors_connect (h : s < a.size) :
    u ∈ ((a.connect s symbol t).state r).successors ↔
      u ∈ (a.state r).successors ∨ r = s ∧ u = t := by
  rw [state_connect h]
  split <;> simp [State.mem_successors_connect, *]

/-! ### Acceptance -/

lemma accepting_push : ((a.push (.new accepting)).state s).accepting =
    if s = a.size then accepting else (a.state s).accepting := by
  rw [state_push]
  split <;> rfl

lemma accepting_mark (h : s < a.size) : ((a.mark s accepting).state r).accepting =
    if r = s then accepting else (a.state r).accepting := by
  rw [mark, state_modify]
  by_cases hr : s = r
  · subst hr
    simp [h]
  · simp [hr, Ne.symm hr]

@[simp] lemma accepting_connect :
    ((a.connect s symbol t).state r).accepting = (a.state r).accepting := by
  rw [connect, state_modify]
  split
  · rename_i h
    rw [← h.1, State.accepting_connect]
  · rfl

/-! ### Reached states -/

/-- More edges reach more states. -/
lemma Reach.mono (edges : ∀ s, ∀ t ∈ (a.state s).successors, t ∈ (b.state s).successors)
    (h : a.Reach s t) : b.Reach s t :=
  Relation.ReflTransGen.mono edges _ _ h

/-- What an edge leads to is reached. -/
lemma reach_of_mem_successors (h : t ∈ (a.state s).successors) : a.Reach s t := .single h

/-! ### Words -/

/-- The words depend on the edges alone. -/
lemma words_eq_of_edges (h : ∀ s, (b.state s).edges = (a.state s).edges) :
    b.words s t = a.words s t := by
  apply le_antisymm
  · exact words_mono (fun s label t ht => by simpa [State.targets, h] using ht) s t
  · exact words_mono (fun s label t ht => by simpa [State.targets, h] using ht) s t

@[simp] lemma words_push : (a.push (.new accepting)).words s t = a.words s t :=
  words_eq_of_edges fun _ => edges_push

@[simp] lemma words_mark : (a.mark r accepting).words s t = a.words s t :=
  words_eq_of_edges fun _ => edges_mark

/-- A new edge can be taken any number of times. -/
lemma words_connect (h : x < a.size) : (a.connect x .epsilon y).words s t =
    a.words s t + a.words s x * (a.words y x)∗ * a.words y t :=
  words_eq_of_links (fun _ _ _ => mem_targets_connect h) s t

/-- A new edge is taken at most once when nothing leads back to it. -/
lemma words_connect_of_eq_zero (h : x < a.size) (back : a.words y x = 0) :
    (a.connect x .epsilon y).words s t = a.words s t + a.words s x * a.words y t := by
  rw [words_connect h, back, kstar_zero, mul_one]

/-- Two new edges to one state are taken at most once when nothing leads back from there. -/
lemma words_connect_connect (hx : x < a.size) (hy : y < a.size) (backX : a.words z x = 0)
    (backY : a.words z y = 0) :
    ((a.connect x .epsilon z).connect y .epsilon z).words s t =
      a.words s t + (a.words s x + a.words s y) * a.words z t := by
  have first : ∀ s t, (a.connect x .epsilon z).words s t =
      a.words s t + a.words s x * a.words z t := fun s t => words_connect_of_eq_zero hx backX
  have stays : ∀ t, (a.connect x .epsilon z).words z t = a.words z t := by
    intro t
    rw [first, backX, zero_mul, add_zero]
  have toY : (a.connect x .epsilon z).words s y = a.words s y := by
    rw [first, backY, mul_zero, add_zero]
  rw [words_connect_of_eq_zero (by simpa) (by rw [stays, backY]), stays, toY, first, add_mul,
    add_assoc]

/-- Nothing but the empty word leads from a state without edges. -/
lemma words_of_successors_eq_nil (h : (a.state s).successors = []) :
    a.words s t = if s = t then 1 else 0 := by
  split
  · subst t
    refine le_antisymm (fun w path => ?_) (a.one_le_words_self s)
    cases path with
    | refl => rfl
    | epsilon edge _ => simpa [h] using State.mem_successors_of_mem_targets edge
    | char edge _ => simpa [h] using State.mem_successors_of_mem_targets edge
  · rename_i ne
    ext w
    have closed : a.ClosedUnder {s} := by rintro _ rfl; simp [h]
    rw [words_eq_zero closed rfl (by simpa using Ne.symm ne)]

/-- Nothing but the empty word leads from a state that is not there. -/
lemma words_of_size_le (h : a.size ≤ s) : a.words s t = if s = t then 1 else 0 :=
  words_of_successors_eq_nil (successors_of_size_le h)

/-! ### New boundaries -/

/-- Adds a state to start from and a state that accepts. -/
def widen (a : Arena) : Arena := (a.push (.new false)).push (.new true)

@[simp] lemma size_widen : a.widen.size = a.size + 2 := by simp [widen]

@[simp] lemma successors_widen : (a.widen.state s).successors = (a.state s).successors := by
  simp [widen]

@[simp] lemma targets_widen :
    (a.widen.state s).targets label = (a.state s).targets label := by
  simp [widen, State.targets]

@[simp] lemma words_widen : a.widen.words s t = a.words s t := by simp [widen]

lemma state_widen_of_lt (h : s < a.size) : a.widen.state s = a.state s := by
  rw [widen, state_push_of_lt (by rw [size_push]; exact h.trans (Nat.lt_succ_self _)),
    state_push_of_lt h]

/-- The last of the new states accepts. -/
lemma accepting_widen : (a.widen.state s).accepting =
    if s = a.size + 1 then true else (a.state s).accepting := by
  rw [widen, accepting_push, accepting_push, size_push]
  split
  · rfl
  · split
    · rw [state_of_size_le (by simp [*])]
      rfl
    · rfl

/-- Adds a state to start from, with edges to two states, and a state that accepts. -/
def enter (a : Arena) (x y : StateId) : Arena :=
  (a.widen.connect a.size .epsilon x).connect a.size .epsilon y

@[simp] lemma size_enter : (a.enter x y).size = a.size + 2 := by simp [enter]

lemma state_enter_of_lt (h : s < a.size) : (a.enter x y).state s = a.state s := by
  rw [enter, state_connect_of_ne h.ne, state_connect_of_ne h.ne, state_widen_of_lt h]

lemma mem_successors_enter : u ∈ ((a.enter x y).state r).successors ↔
    u ∈ (a.state r).successors ∨ r = a.size ∧ (u = x ∨ u = y) := by
  rw [enter, mem_successors_connect (by simp), mem_successors_connect (by simp), successors_widen]
  tauto

lemma accepting_enter : ((a.enter x y).state s).accepting =
    if s = a.size + 1 then true else (a.state s).accepting := by
  rw [enter, accepting_connect, accepting_connect, accepting_widen]

/-- The words from the new state go on from the two other states. -/
lemma words_enter (hx : a.words x a.size = 0) (hy : a.words y a.size = 0) :
    (a.enter x y).words s t =
      a.words s t + a.words s a.size * (a.words x t + a.words y t) := by
  have first : ∀ s t, (a.widen.connect a.size .epsilon x).words s t =
      a.words s t + a.words s a.size * a.words x t := by
    intro s t
    rw [words_connect_of_eq_zero (by simp) (by simpa using hx)]
    simp only [words_widen]
  have back : (a.widen.connect a.size .epsilon x).words y a.size = 0 := by
    rw [first, hy, zero_mul, add_zero]
  have start : a.words s a.size * a.words x a.size = 0 := by rw [hx, mul_zero]
  have next : a.words y a.size * a.words x t = 0 := by rw [hy, zero_mul]
  rw [enter, words_connect_of_eq_zero (by simp) back, first, first, first, start, next, add_zero,
    add_zero, mul_add, add_assoc]

end Arena

namespace Build

open Arena

variable {a b : Arena} {s t : StateId} {symbol : Symbol} {accepting : Bool} {α β : Type}

/-- A construction goes on with the result of its first part. -/
lemma run_bind_of_run {x : Build α} {next : α → Build β} {r : α} (h : x.run a = .ok (r, b)) :
    (x >>= next).run a = (next r).run b := by
  rw [StateT.run_bind, h]
  rfl

/-- New boundaries are numbered by the size of the arena. -/
lemma run_addStates {next : StateId → StateId → Build β} :
    (do next (← addState false) (← addState true)).run a =
      (next a.size (a.size + 1)).run a.widen := by
  rw [run_bind_of_run (run_addState false a), run_bind_of_run (run_addState true _), size_push]
  rfl

lemma run_connect (h : s < a.size) :
    (connect s symbol t).run a = .ok ((), a.connect s symbol t) := run_edit_of_lt h _

lemma run_setAccepting (h : s < a.size) :
    (setAccepting s accepting).run a = .ok ((), a.mark s accepting) := run_edit_of_lt h _

end Build

end PatternAutomata
