import PatternAutomata.Events
import PatternAutomata.Proofs.DepthFirst
import PatternAutomata.Proofs.Renumbering

/-!
# The order in which labels are expanded

Determinization can be written as a loop over a list of labels that wait to be expanded. A turn of
the loop takes the first of them, skips it if it has been expanded before, and otherwise expands it:
its moves become a row, and the labels that they lead to are put to the front one after the other,
except for the label itself and for those that have been expanded. The same label may wait several
times, and may have been expanded when its turn comes.

In spite of that the labels are expanded in the order of a recursive depth-first walk that prefers
the characters that come last in the alphabet. What has been expanded, together with what the
recursion would still enter from the waiting labels, is the same list at every turn
(`Expansion.Invariant`). The loop ends because a turn leaves fewer labels to expand, or no more of
them and fewer that wait (`Expansion.remaining`).
-/

namespace PatternAutomata

/-! ### The graph of labels -/

namespace NumberedTable

/-- The labels that the characters of the alphabet lead to, the last character first; characters
that lead nowhere are left out. -/
def destinations (t : NumberedTable) (label : Label) : List Label :=
  (t.alphabet.reverse.map (t.destination label)).filter fun target => !target.isEmpty

/-- The moves of a label lead to its destinations. -/
lemma reverse_map_snd_moves (t : NumberedTable) (label : Label) :
    ((t.moves label).map Prod.snd).reverse = t.destinations label := by
  rw [destinations, moves, List.map_reverse, List.filter_reverse, List.filter_map, List.filter_map,
    List.map_map]
  rfl

lemma successors_eq_destinations (t : NumberedTable) : t.successors = t.destinations :=
  funext t.reverse_map_snd_moves

end NumberedTable

namespace Automaton

variable {nfa : Automaton} {label target : Label}

/-- There are finitely many labels. -/
lemma finite_isLabel (t : NumberedTable) : {label | t.IsLabel label}.Finite :=
  Set.Finite.of_finite_image (Set.toFinite (t.digits '' {label | t.IsLabel label}))
    fun _ h _ h' same => h.digits_inj h' same

/-- Every destination is a label. -/
lemma isLabel_of_mem_destinations (mem : target ∈ nfa.table.destinations label) :
    nfa.table.IsLabel target := by
  rw [← NumberedTable.successors_eq_destinations] at mem
  obtain ⟨c, -, rfl, -⟩ := NumberedTable.mem_successors_iff.1 mem
  exact Built.isLabel_destination label c

/-- The labels and where the characters of the alphabet lead from them. -/
def labelGraph (nfa : Automaton) : FiniteGraph Label where
  next := nfa.table.destinations
  finite label := by
    refine ((finite_isLabel nfa.table).insert label).subset fun target reaches => ?_
    exact reaches.mem_of_closed (S := insert label {label | nfa.table.IsLabel label})
      (fun _ _ _ mem => .inr (isLabel_of_mem_destinations mem)) (Set.mem_insert _ _)

lemma next_labelGraph (nfa : Automaton) : nfa.labelGraph.next = nfa.table.destinations := by
  rw [labelGraph]

/-- The labels are discovered in the order of the recursive depth-first walk. -/
lemma labels_eq_depthFirst (nfa : Automaton) :
    nfa.table.labels = nfa.labelGraph.depthFirst ∅ [nfa.table.closure 1] := by
  rw [NumberedTable.labels, NumberedTable.successors_eq_destinations, ← next_labelGraph]
  refine preorder_eq_depthFirst (g := nfa.labelGraph) ?_
  refine NumberedTable.length_le_labelBound (nfa.labelGraph.nodup_depthFirst _) fun label mem => ?_
  obtain ⟨root, hroot, reaches⟩ := FiniteGraph.reachable_of_mem_depthFirst mem
  obtain rfl := List.mem_singleton.1 hroot
  rw [next_labelGraph] at reaches
  exact reaches.mem_of_closed (S := {label | nfa.table.IsLabel label})
    (fun _ _ _ mem => isLabel_of_mem_destinations mem) (Built.isLabel_closure nfa.number?_entry)

end Automaton

/-! ### The loop -/

/-- What determinization has done so far. -/
structure Expansion where
  /-- The labels that have been expanded, in this order, with their moves. -/
  rows : List (Label × List (Char × Label))
  /-- The labels among them that accept. -/
  accepting : List Label
  /-- The labels that wait to be expanded, the next one first. -/
  waiting : List Label
  /-- What has been reported. -/
  events : List Event

namespace Expansion

/-- The labels that have been expanded. -/
def expanded (x : Expansion) : List Label := x.rows.map Prod.fst

/-- In the beginning the closure of the first row waits. -/
def start (t : NumberedTable) : Expansion := ⟨[], [], [t.closure 1], []⟩

/-- Puts the labels that a label has moves to in front of the others, one after the other, unless it
is the same label or one that has been expanded. -/
def pushMoves (x : Expansion) (label : Label) (moves : List (Char × Label)) (rest : List Label) :
    List Label :=
  moves.foldl (fun waiting move =>
    if move.2 ≠ label ∧ move.2 ∉ x.expanded then move.2 :: waiting else waiting) rest

/-- Expands a label, behind which other labels wait. -/
def expand (t : NumberedTable) (x : Expansion) (label : Label) (rest : List Label) : Expansion where
  rows := x.rows ++ [(label, t.moves label)]
  accepting := if t.labelAccepts label then x.accepting ++ [label] else x.accepting
  waiting := x.pushMoves label (t.moves label) rest
  events := x.events ++ [.expanding label]

/-- One turn of the loop, if a label waits: the label is expanded unless that has been done. -/
def turn? (t : NumberedTable) (x : Expansion) : Option Expansion :=
  match x.waiting with
  | [] => none
  | label :: rest =>
    if label ∈ x.expanded then some { x with waiting := rest } else some (x.expand t label rest)

/-- Some turns of the loop lead from one point to another. -/
def Runs (t : NumberedTable) : Expansion → Expansion → Prop :=
  Relation.ReflTransGen fun x y => x.turn? t = some y

variable {nfa : Automaton} {x y : Expansion} {label : Label} {rest : List Label}

/-- Labels that are put to the front come to stand in the opposite order. -/
lemma pushMoves_eq (x : Expansion) (label : Label) (moves : List (Char × Label))
    (rest : List Label) : x.pushMoves label moves rest =
      ((moves.map Prod.snd).reverse.filter fun target =>
        target ≠ label ∧ target ∉ x.expanded) ++ rest := by
  unfold pushMoves
  induction moves generalizing rest with
  | nil => rfl
  | cons move moves ih =>
    rw [List.foldl_cons, ih, List.map_cons, List.reverse_cons, List.filter_append,
      List.append_assoc]
    congr 1
    by_cases pushed : move.2 ≠ label ∧ move.2 ∉ x.expanded <;> simp [pushed]

lemma expanded_expand (t : NumberedTable) (x : Expansion) :
    (x.expand t label rest).expanded = x.expanded ++ [label] := by
  simp [expanded, expand]

lemma waiting_expand (t : NumberedTable) (x : Expansion) :
    (x.expand t label rest).waiting = ((t.destinations label).filter fun target =>
      target ≠ label ∧ target ∉ x.expanded) ++ rest := by
  rw [expand, pushMoves_eq, NumberedTable.reverse_map_snd_moves]

/-- The labels that have been expanded are marked, the last one included. -/
lemma toFinset_expanded_expand (t : NumberedTable) (x : Expansion) :
    (x.expand t label rest).expanded.toFinset = insert label x.expanded.toFinset := by
  ext
  simp [expanded_expand]

/-- A turn skips the first label that waits if it has been expanded, and expands it otherwise. -/
lemma turn?_eq_some {t : NumberedTable} (h : x.turn? t = some y) :
    ∃ label rest, x.waiting = label :: rest ∧
      (label ∈ x.expanded ∧ y = { x with waiting := rest } ∨
        label ∉ x.expanded ∧ y = x.expand t label rest) := by
  unfold turn? at h
  split at h
  · cases h
  · rename_i label rest waiting
    refine ⟨label, rest, waiting, ?_⟩
    split at h
    · exact .inl ⟨‹_›, (Option.some_inj.1 h).symm⟩
    · exact .inr ⟨‹_›, (Option.some_inj.1 h).symm⟩

/-- The loop goes on while labels wait. -/
lemma waiting_of_turn?_eq_none {t : NumberedTable} (h : x.turn? t = none) : x.waiting = [] := by
  unfold turn? at h
  split at h
  · assumption
  · split at h <;> cases h

/-! ### The order of the loop -/

/-- What every turn keeps. -/
structure Invariant (nfa : Automaton) (x : Expansion) : Prop where
  rows : x.rows = x.expanded.map fun label => (label, nfa.table.moves label)
  accepting : x.accepting = x.expanded.filter nfa.table.labelAccepts
  events : x.events = x.expanded.map .expanding
  /-- What has been expanded and what the recursion would still enter make up the same list. -/
  order : x.expanded ++ nfa.labelGraph.depthFirst x.expanded.toFinset x.waiting =
    nfa.labelGraph.depthFirst ∅ [nfa.table.closure 1]

lemma invariant_start (nfa : Automaton) : Invariant nfa (start nfa.table) := ⟨rfl, rfl, rfl, rfl⟩

/-- What the recursion would still enter starts with the label that is expanded. -/
lemma depthFirst_expand (new : label ∉ x.expanded) :
    nfa.labelGraph.depthFirst x.expanded.toFinset (label :: rest) =
      label :: nfa.labelGraph.depthFirst (x.expand nfa.table label rest).expanded.toFinset
        (x.expand nfa.table label rest).waiting := by
  -- the labels that are not put to the front have been expanded, now that this one has
  have dropped : ∀ target, decide (target ≠ label ∧ target ∉ x.expanded) = false →
      target ∈ insert label x.expanded.toFinset := by
    intro target held
    simp only [decide_eq_false_iff_not] at held
    simp only [Finset.mem_insert, List.mem_toFinset]
    tauto
  rw [nfa.labelGraph.depthFirst_enter (by simpa using new), toFinset_expanded_expand,
    waiting_expand, nfa.labelGraph.depthFirst_filter_append dropped, nfa.next_labelGraph]

/-- One turn keeps the invariant. -/
lemma Invariant.turn (inv : Invariant nfa x) (h : x.turn? nfa.table = some y) :
    Invariant nfa y := by
  obtain ⟨label, rest, waiting, ⟨old, rfl⟩ | ⟨new, rfl⟩⟩ := turn?_eq_some h
  · have order := inv.order
    rw [waiting, FiniteGraph.depthFirst_cons_of_mem _ (List.mem_toFinset.2 old)] at order
    exact ⟨inv.rows, inv.accepting, inv.events, order⟩
  · have order := inv.order
    rw [waiting, depthFirst_expand new] at order
    refine ⟨?_, ?_, ?_, ?_⟩
    · rw [expanded_expand, List.map_append, ← inv.rows]
      rfl
    · rw [expanded_expand, List.filter_append, ← inv.accepting]
      by_cases accepts : nfa.table.labelAccepts label <;> simp [expand, accepts]
    · rw [expanded_expand, List.map_append, ← inv.events]
      rfl
    · rw [← order]
      nth_rewrite 1 [expanded_expand]
      rw [List.append_assoc, List.singleton_append]

/-- The invariant holds throughout the loop. -/
lemma Invariant.of_runs (h : Runs nfa.table (start nfa.table) x) : Invariant nfa x := by
  induction h with
  | refl => exact invariant_start nfa
  | tail _ turn ih => exact ih.turn turn

/-! ### The end of the loop -/

/-- The number of labels that the loop has still to expand, and the number of those that wait. -/
noncomputable def remaining (nfa : Automaton) (x : Expansion) : ℕ ×ₗ ℕ :=
  toLex (nfa.labelGraph.unmarked x.expanded.toFinset x.waiting, x.waiting.length)

/-- A turn leaves fewer labels to expand, or no more of them and fewer that wait. -/
lemma remaining_turn (h : x.turn? nfa.table = some y) : y.remaining nfa < x.remaining nfa := by
  obtain ⟨label, rest, waiting, ⟨-, rfl⟩ | ⟨new, rfl⟩⟩ := turn?_eq_some h
  · refine Prod.Lex.right' _ ?_ ?_
    · rw [waiting]
      exact nfa.labelGraph.unmarked_le subset_rfl nfa.labelGraph.reachable_tail_subset
    · rw [waiting]
      exact Nat.lt_succ_self _
  · refine Prod.Lex.left _ _ ?_
    rw [toFinset_expanded_expand, waiting]
    refine nfa.labelGraph.unmarked_lt (by simpa using new) ?_
    refine nfa.labelGraph.reachable_subset fun target mem => ?_
    rw [waiting_expand] at mem
    rcases List.mem_append.1 mem with pushed | behind
    · have edge : target ∈ nfa.labelGraph.next label := by
        rw [nfa.next_labelGraph]
        exact (List.mem_filter.1 pushed).1
      exact nfa.labelGraph.mem_reachable_of_mem_next List.mem_cons_self edge
    · exact nfa.labelGraph.mem_reachable (List.mem_cons_of_mem label behind)

/-- The loop ends. -/
lemma exists_runs (nfa : Automaton) (x : Expansion) :
    ∃ y, Runs nfa.table x y ∧ y.waiting = [] := by
  induction rank : x.remaining nfa using WellFoundedLT.induction generalizing x with
  | ind rank ih =>
    cases turn : x.turn? nfa.table with
    | none => exact ⟨x, .refl, waiting_of_turn?_eq_none turn⟩
    | some next =>
      obtain ⟨y, runs, done⟩ := ih _ (rank ▸ remaining_turn turn) next rfl
      exact ⟨y, .head turn runs, done⟩

/-- When no label waits any more, all labels have been expanded in their order. -/
lemma Invariant.expanded_eq (inv : Invariant nfa x) (done : x.waiting = []) :
    x.expanded = nfa.table.labels := by
  have order := inv.order
  rwa [done, FiniteGraph.depthFirst_nil, List.append_nil, ← nfa.labels_eq_depthFirst] at order

end Expansion

/-! ### Labels and events -/

/-- The label that an event says is expanded, if it does. -/
def Event.expanded? : Event → Option Label
  | expanding label => some label
  | _ => none

/-- The events of a source show the labels in their order. -/
lemma Source.exists_events {source : Source} {nfa : Automaton} (h : source.automaton = .ok nfa) :
    ∃ events, source.events = .ok events ∧
      events.filterMap Event.expanded? = nfa.table.labels := by
  have compiled : (source.typeName?.toList.map fun name =>
      Event.compiled name nfa.size).filterMap Event.expanded? = [] := by
    cases source.typeName? <;> rfl
  have expanding : (nfa.table.labels.map Event.expanding).filterMap Event.expanded? =
      nfa.table.labels := by
    rw [List.filterMap_map]
    exact List.filterMap_some
  have built : ∀ n m, [Event.built n m].filterMap Event.expanded? = [] := fun _ _ => rfl
  have determinized : ∀ n m k, [Event.determinized n m k].filterMap Event.expanded? = [] :=
    fun _ _ _ => rfl
  unfold Source.events
  rw [h]
  refine ⟨_, rfl, ?_⟩
  rw [List.filterMap_append, List.filterMap_append, List.filterMap_append, compiled, expanding,
    built, determinized, List.nil_append, List.nil_append, List.append_nil]

/-- Determinization remembers the labels in the order in which a recursive depth-first walk first
visits them. The walk starts at the closure of the first row and visits the destinations of a label
in the opposite order of the alphabet. The numbers of the states are the places of their labels, the
loop that takes labels from a waiting list ends with the same labels, rows and accepting labels, and
it reports each label once, in the same order, as do the events of every source. -/
theorem determinize_expands_depthFirst {nfa : Automaton} {f : Fragment} {a : Arena}
    (h : Automaton.build f a = .ok nfa) :
    ∃ s, nfa.determinize.subsets = some s ∧
      s.labels = nfa.labelGraph.depthFirst ∅ [nfa.table.closure 1] ∧ s.labels.Nodup ∧
      s.NumberedBy nfa.determinize.table ∧
      (∃ x, Expansion.Runs nfa.table (.start nfa.table) x ∧ x.waiting = [] ∧ x.rows = s.rows ∧
        x.accepting = s.accepting ∧ x.events = s.labels.map .expanding) ∧
      ∀ source : Source, source.automaton = .ok nfa →
        ∃ events, source.events = .ok events ∧ events.filterMap Event.expanded? = s.labels := by
  have labels : nfa.table.subsets.labels = nfa.table.labels := nfa.table.map_fst_rows_subsets
  have numbered := (Automaton.Built.of_build h).numberedBy
  refine ⟨nfa.table.subsets, rfl, ?_, numbered.nodup, numbered, ?_, fun source made => ?_⟩
  · rw [labels, nfa.labels_eq_depthFirst]
  · obtain ⟨x, runs, done⟩ := Expansion.exists_runs nfa (.start nfa.table)
    have inv := Expansion.Invariant.of_runs runs
    have expanded := inv.expanded_eq done
    refine ⟨x, runs, done, ?_, ?_, ?_⟩
    · rw [inv.rows, expanded]
      rfl
    · rw [inv.accepting, expanded]
      rfl
    · rw [inv.events, expanded, labels]
  · rw [labels]
    exact source.exists_events made

theorem determinize_expands_depthFirst_tangled :
    ∃ nfa, Automaton.build ⟨0, 3⟩ Automaton.tangledArena = .ok nfa ∧
      nfa.labelGraph.depthFirst ∅ [nfa.table.closure 1] = [[1, 2, 3], [4, 1, 2, 3], [2, 1, 3]] ∧
      ∃ x, Expansion.Runs nfa.table (.start nfa.table) x ∧ x.waiting = [] ∧
        x.events = [.expanding [1, 2, 3], .expanding [4, 1, 2, 3], .expanding [2, 1, 3]] := by
  have h : Automaton.build ⟨0, 3⟩ Automaton.tangledArena =
      .ok ⟨Automaton.tangledArena, 0, 3⟩ := by decide +kernel
  obtain ⟨s, subsets, order, -, -, ⟨x, runs, done, -, -, events⟩, -⟩ :=
    determinize_expands_depthFirst h
  have labels : s.labels = [[1, 2, 3], [4, 1, 2, 3], [2, 1, 3]] := by
    rw [← Option.some_inj.1 subsets]
    decide +kernel
  rw [labels] at order events
  exact ⟨_, h, order.symm, x, runs, done, events⟩

end PatternAutomata
