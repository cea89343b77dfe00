import PatternAutomata.Proofs.Closures
import PatternAutomata.Proofs.Expansion

/-!
# Labels that wait to be expanded

The loop that expands labels (`Expansion`) can put one label many times on its list, and the list
may grow with every label that is expanded. What keeps the loop in bounds is what waits: only lists
of numbers of rows that are not empty and repeat nothing (`Expansion.Orderly.waiting`), of which
there are finitely many. No label is expanded twice, since a label that waits is passed over if it
has been expanded, and whatever a row leads to has been expanded or waits
(`Expansion.Orderly.frontier`). When nothing waits any more, every destination that has been
recorded has therefore a row of its own.
-/

namespace PatternAutomata

namespace Expansion

variable {nfa : Automaton} {x y : Expansion} {label : Label} {rest : List Label}

/-- What every turn keeps of the labels. -/
structure Orderly (nfa : Automaton) (x : Expansion) : Prop where
  /-- What waits are labels that stand for some states. -/
  waiting : ∀ label ∈ x.waiting, label ≠ [] ∧ nfa.table.IsLabel label
  nodup : x.expanded.Nodup
  /-- Whatever a row leads to has been expanded or waits. -/
  frontier : ∀ row ∈ x.rows, ∀ move ∈ row.2, move.2 ∈ x.expanded ∨ move.2 ∈ x.waiting

/-- In the beginning the closure of the first row waits, which holds at least the first number. -/
lemma orderly_start (built : nfa.Built) : Orderly nfa (start nfa.table) where
  waiting label mem := by
    obtain rfl := List.mem_singleton.1 mem
    have head := built.exactClosures_table.head 1 (Automaton.number?_bounds nfa.number?_entry)
    refine ⟨fun empty => ?_, Automaton.Built.isLabel_closure nfa.number?_entry⟩
    rw [empty] at head
    cases head
  nodup := .nil
  frontier _ mem := nomatch mem

/-- A move of a label that is expanded leads to a label that has been expanded or waits. -/
lemma mem_expanded_or_waiting_expand {move : Char × Label} (mem : move ∈ nfa.table.moves label) :
    move.2 ∈ (x.expand nfa.table label rest).expanded ∨
      move.2 ∈ (x.expand nfa.table label rest).waiting := by
  rw [expanded_expand, waiting_expand, List.mem_append, List.mem_append, List.mem_singleton,
    List.mem_filter, ← NumberedTable.reverse_map_snd_moves]
  by_cases known : move.2 = label ∨ move.2 ∈ x.expanded
  · exact .inl known.symm
  · rw [not_or] at known
    exact .inr (.inl ⟨List.mem_reverse.2 (List.mem_map_of_mem mem), decide_eq_true known⟩)

/-- A label that is put on the list has numbers, each of them once. -/
lemma isLabel_of_mem_waiting_expand {target : Label}
    (mem : target ∈ (x.expand nfa.table label rest).waiting) :
    (target ≠ [] ∧ nfa.table.IsLabel target) ∨ target ∈ rest := by
  rw [waiting_expand, List.mem_append] at mem
  refine mem.imp_left fun pushed => ?_
  have destination := (List.mem_filter.1 pushed).1
  refine ⟨fun empty => ?_, Automaton.isLabel_of_mem_destinations destination⟩
  rw [NumberedTable.destinations, List.mem_filter, empty] at destination
  exact Bool.false_ne_true destination.2

/-- One turn keeps what is known of the labels. -/
lemma Orderly.turn (orderly : Orderly nfa x) (h : x.turn? nfa.table = some y) : Orderly nfa y := by
  obtain ⟨label, rest, waiting, ⟨old, rfl⟩ | ⟨new, rfl⟩⟩ := turn?_eq_some h
  · refine ⟨fun target mem => ?_, orderly.nodup, fun row hrow move hmove => ?_⟩
    · exact orderly.waiting target (waiting ▸ List.mem_cons_of_mem label mem)
    · rcases orderly.frontier row hrow move hmove with expanded | waits
      · exact .inl expanded
      · rw [waiting, List.mem_cons] at waits
        rcases waits with same | waits
        · rw [same]
          exact .inl old
        · exact .inr waits
  · refine ⟨fun target mem => ?_, ?_, fun row hrow move hmove => ?_⟩
    · rcases isLabel_of_mem_waiting_expand mem with pushed | behind
      · exact pushed
      · exact orderly.waiting target (waiting ▸ List.mem_cons_of_mem label behind)
    · rw [expanded_expand]
      exact orderly.nodup.append (List.nodup_singleton label) (List.disjoint_singleton.2 new)
    · rcases List.mem_append.1 hrow with hrow | hrow
      · have before := orderly.frontier row hrow move hmove
        rw [waiting, List.mem_cons] at before
        rw [expanded_expand, waiting_expand, List.mem_append, List.mem_singleton, List.mem_append]
        rcases before with expanded | same | behind
        · exact .inl (.inl expanded)
        · exact .inl (.inr same)
        · exact .inr (.inr behind)
      · obtain rfl := List.mem_singleton.1 hrow
        exact mem_expanded_or_waiting_expand hmove

/-- What is known of the labels holds throughout the loop. -/
lemma Orderly.of_runs (built : nfa.Built) (h : Runs nfa.table (start nfa.table) x) :
    Orderly nfa x := by
  induction h with
  | refl => exact orderly_start built
  | tail _ turn ih => exact ih.turn turn

/-- The loop stops when nothing waits. -/
lemma turn?_of_waiting_eq_nil {t : NumberedTable} (done : x.waiting = []) : x.turn? t = none := by
  rw [turn?, done]

/-- When nothing waits any more, the loop has found what determinization remembers. -/
lemma Invariant.subsets_eq (inv : Invariant nfa x) (done : x.waiting = []) :
    nfa.determinize.subsets = some ⟨x.rows, x.accepting⟩ := by
  rw [inv.rows, inv.accepting, inv.expanded_eq done]
  rfl

end Expansion

/-- The loop of determinization ends. Whatever waits on the way is a list of numbers of rows that is
not empty and repeats nothing, and no label is expanded twice. When the loop ends, it has found what
determinization remembers, and every label that a row leads to has been expanded. -/
theorem determinize_expansion_ends {nfa : Automaton} {f : Fragment} {a : Arena}
    (h : Automaton.build f a = .ok nfa) :
    (∃ x, Expansion.Runs nfa.table (.start nfa.table) x ∧ x.turn? nfa.table = none) ∧
    ∀ x, Expansion.Runs nfa.table (.start nfa.table) x →
      (∀ label ∈ x.waiting, label ≠ [] ∧ label.Nodup ∧
        ∀ n : ℕ, n ∈ label → 1 ≤ n ∧ n ≤ nfa.table.size) ∧
      x.expanded.Nodup ∧
      (x.turn? nfa.table = none → nfa.determinize.subsets = some ⟨x.rows, x.accepting⟩ ∧
        ∀ row ∈ x.rows, ∀ move ∈ row.2, move.2 ∈ x.expanded) := by
  have built := Automaton.Built.of_build h
  constructor
  · obtain ⟨x, runs, done⟩ := Expansion.exists_runs nfa (.start nfa.table)
    exact ⟨x, runs, Expansion.turn?_of_waiting_eq_nil done⟩
  · intro x runs
    have orderly := Expansion.Orderly.of_runs built runs
    refine ⟨fun label mem => ?_, orderly.nodup, fun stop => ?_⟩
    · obtain ⟨nonempty, isLabel⟩ := orderly.waiting label mem
      exact ⟨nonempty, isLabel.nodup, isLabel.bounds⟩
    · have done := Expansion.waiting_of_turn?_eq_none stop
      refine ⟨(Expansion.Invariant.of_runs runs).subsets_eq done, fun row hrow move hmove => ?_⟩
      rcases orderly.frontier row hrow move hmove with expanded | waits
      · exact expanded
      · rw [done] at waits
        cases waits

/-- An arena in which two states lead to a third one, whose label comes to wait twice. -/
def rejoiningArena : Arena :=
  ⟨#[⟨[(.char 'a', [1]), (.char 'b', [2])], false⟩, ⟨[], true⟩, ⟨[(.char 'a', [1])], false⟩]⟩

theorem determinize_expansion_ends_rejoining :
    ∃ nfa, Automaton.build ⟨0, 1⟩ rejoiningArena = .ok nfa ∧
      ((Expansion.start nfa.table).turn? nfa.table >>= (·.turn? nfa.table)).map (·.waiting) =
        some [[2], [2]] ∧
      ∃ x, Expansion.Runs nfa.table (.start nfa.table) x ∧ x.turn? nfa.table = none ∧
        x.expanded.Nodup ∧ x.expanded = [[1], [3], [2]] := by
  have h : Automaton.build ⟨0, 1⟩ rejoiningArena = .ok ⟨rejoiningArena, 0, 1⟩ := by decide +kernel
  obtain ⟨⟨x, runs, stop⟩, throughout⟩ := determinize_expansion_ends h
  obtain ⟨-, nodup, last⟩ := throughout x runs
  have rows : (Automaton.table ⟨rejoiningArena, 0, 1⟩).subsets.rows = x.rows :=
    congrArg Subsets.rows (Option.some_inj.1 (last stop).1)
  have expanded : x.expanded = [[1], [3], [2]] := by
    rw [Expansion.expanded, ← rows]
    decide +kernel
  exact ⟨_, h, by decide +kernel, x, runs, stop, nodup, expanded⟩

end PatternAutomata
