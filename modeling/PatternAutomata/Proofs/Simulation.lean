import PatternAutomata.Proofs.Determinization

/-!
# Simulation of the nondeterministic automaton

A deterministic automaton that is made by determinization follows a word in step with the automaton
it is made from. As long as some state is reached with the word, it is in a state whose label holds
the numbers of exactly the states that are reached, each of them once, and the state accepts when
one of them does. When no state is reached any more, a target is missing
(`Automaton.follow?_simulates`).
-/

namespace PatternAutomata

/-- The label of a state with a number, if the automaton remembers what its states stand for. -/
def Dfa.label? (d : Dfa) : StateNumber → Option Label
  | 0 => none
  | index + 1 => d.subsets.bind fun subsets => subsets.rows[index]?.map Prod.fst

namespace Automaton

variable {nfa : Automaton} {label : Label} {word : List Char} {n k : ℕ}

/-- The numbers of the states that paths from the entry reach with a word. -/
def numbersAfter (nfa : Automaton) (word : List Char) : Set StateNumber :=
  {k | ∃ id, nfa.arena.Path nfa.entry word id ∧ nfa.number? id = some k}

/-- A number that a label may hold is the number of a state. -/
lemma exists_number_of_bounds (positive : 1 ≤ k) (small : k ≤ nfa.table.size) :
    ∃ id, nfa.number? id = some k := by
  have bound : k - 1 < nfa.order.length := by
    simp only [table, NumberedTable.size, List.size_toArray, List.length_map] at small
    omega
  refine ⟨nfa.order[k - 1], number?_eq_some_iff.2 ⟨k - 1, by omega, ?_⟩⟩
  exact List.getElem?_eq_getElem bound

/-- What is left after a word is a label. -/
lemma isLabel_labelAfter (nfa : Automaton) (word : List Char) :
    nfa.table.IsLabel (nfa.table.labelAfter word) := by
  cases word using List.reverseRecOn with
  | nil => exact Built.isLabel_closure nfa.number?_entry
  | append_singleton word c =>
    rw [NumberedTable.labelAfter_append_singleton]
    exact Built.isLabel_destination _ c

/-- The label after a word holds the numbers of the states that are reached with that word. -/
lemma Built.mem_labelAfter_iff (built : nfa.Built) (word : List Char) (k : ℕ) :
    k ∈ nfa.table.labelAfter word ↔ k ∈ nfa.numbersAfter word := by
  constructor
  · intro mem
    obtain ⟨positive, small⟩ := (nfa.isLabel_labelAfter word).bounds k mem
    obtain ⟨id, number⟩ := exists_number_of_bounds positive small
    exact ⟨id, (built.stands_labelAfter_iff word id).1 ⟨k, mem, number⟩, number⟩
  · rintro ⟨id, path, number⟩
    obtain ⟨k', mem, number'⟩ := (built.stands_labelAfter_iff word id).2 path
    rw [number, Option.some_inj] at number'
    rwa [number']

/-- The label of a state of the deterministic automaton is the one with its number. -/
lemma label?_determinize_iff :
    nfa.determinize.label? n = some label ↔ nfa.table.labelNumber? label = some n := by
  have rows : ∀ i : ℕ, (nfa.table.subsets.rows[i]?.map Prod.fst) = nfa.table.labels[i]? := by
    intro i
    rw [← NumberedTable.map_fst_rows_subsets, List.getElem?_map]
  rw [NumberedTable.labelNumber?_eq_some_iff]
  cases n with
  | zero => simp [Dfa.label?]
  | succ i =>
    change (nfa.table.subsets.rows[i]?.map Prod.fst) = some label ↔ _
    rw [rows]
    exact ⟨fun h => ⟨i, rfl, h⟩, fun ⟨j, hij, h⟩ => by rwa [Nat.succ.inj hij]⟩

/-- A word leads nowhere exactly when the label after it is empty. -/
lemma follow?_eq_none_iff (built : nfa.Built) (word : List Char) :
    nfa.determinize.table.follow? Dfa.start word = none ↔ nfa.table.labelAfter word = [] := by
  rw [Option.eq_none_iff_forall_ne_some]
  constructor
  · intro none
    by_contra nonempty
    obtain ⟨n, number⟩ :=
      NumberedTable.exists_labelNumber_iff.2 (Built.labelAfter_mem_labels nonempty)
    exact none n ((follow?_eq_some_iff built word n).2 ⟨nonempty, number⟩)
  · intro empty n some
    exact ((follow?_eq_some_iff built word n).1 some).1 empty

/-- Following a word, the deterministic automaton of an automaton that is built holds the numbers of
the states that are reached with that word. They all have a number; a target is missing exactly when
there are none, and otherwise the label of the state that is reached lists them without repetitions,
and the state accepts exactly when one of the numbers does. -/
theorem follow?_simulates {f : Fragment} {a : Arena} (h : build f a = .ok nfa)
    (word : List Char) :
    (∀ id, nfa.arena.Path nfa.entry word id → ∃ k, nfa.number? id = some k) ∧
    (nfa.determinize.table.follow? Dfa.start word = none ↔ nfa.numbersAfter word = ∅) ∧
    ∀ n, nfa.determinize.table.follow? Dfa.start word = some n →
      ∃ label, nfa.determinize.label? n = some label ∧ label.Nodup ∧
        (∀ k, k ∈ label ↔ k ∈ nfa.numbersAfter word) ∧
        (nfa.determinize.accepting.contains n = true ↔
          ∃ k ∈ nfa.numbersAfter word, k ∈ nfa.table.accepting) := by
  have built := Built.of_build h
  have holds := built.mem_labelAfter_iff word
  refine ⟨fun id path => built.exists_number_iff.2 path.reach, ?_, fun n some => ?_⟩
  · rw [follow?_eq_none_iff built, List.eq_nil_iff_forall_not_mem, Set.eq_empty_iff_forall_notMem]
    simp only [holds]
  · obtain ⟨-, number⟩ := (follow?_eq_some_iff built word n).1 some
    refine ⟨nfa.table.labelAfter word, label?_determinize_iff.2 number,
      (nfa.isLabel_labelAfter word).nodup, holds, ?_⟩
    refine (NumberedTable.contains_acceptingNumbers_iff number).trans ?_
    simp only [NumberedTable.labelAccepts, List.any_eq_true, List.contains_iff_mem, holds]

theorem follow?_simulates_tangled :
    ∃ nfa, build ⟨0, 3⟩ tangledArena = .ok nfa ∧
      (∀ id, nfa.arena.Path nfa.entry ['a', 'b'] id → ∃ k, nfa.number? id = some k) ∧
      (nfa.determinize.table.follow? Dfa.start ['a', 'b'] = none ↔
        nfa.numbersAfter ['a', 'b'] = ∅) ∧
      ∀ n, nfa.determinize.table.follow? Dfa.start ['a', 'b'] = some n →
        ∃ label, nfa.determinize.label? n = some label ∧ label.Nodup ∧
          (∀ k, k ∈ label ↔ k ∈ nfa.numbersAfter ['a', 'b']) ∧
          (nfa.determinize.accepting.contains n = true ↔
            ∃ k ∈ nfa.numbersAfter ['a', 'b'], k ∈ nfa.table.accepting) :=
  ⟨⟨tangledArena, 0, 3⟩, by decide +kernel,
    follow?_simulates (f := ⟨0, 3⟩) (a := tangledArena) (by decide +kernel) ['a', 'b']⟩

end Automaton

end PatternAutomata
