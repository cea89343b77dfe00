import PatternAutomata.Dfa.Session
import PatternAutomata.Proofs.LiveStates

/-!
# Tables that number labels

Determinization finds labels and their moves, and then writes numbers for the labels. A move to a
label that has no number would be left out without a trace. There is none, because the walk through
the labels goes on until it has been at every label that a move leads to; so the table is a faithful
image of the labels, with a row for each and nothing else (`Subsets.NumberedBy`).

Commands that change which states accept keep the table and the memory of its labels, and a command
that replaces the table wipes that memory for good, whatever commands come before and after it.
-/

namespace PatternAutomata

/-! ### Commands -/

namespace Dfa

variable {d : Dfa}

/-- The automaton after some commands, one after the other. -/
def after (d : Dfa) (commands : List Command) : Dfa :=
  commands.foldl (fun d command => (d.execute command).1) d

/-- The answers to further commands are those of the automaton after the first ones. -/
lemma replies_append (d : Dfa) (before later : List Command) :
    d.replies (before ++ later) = d.replies before ++ (d.after before).replies later := by
  induction before generalizing d with
  | nil => rfl
  | cons command before ih => exact congrArg (_ :: ·) (ih (d.execute command).1)

/-- Commands are executed one part after the other. -/
lemma after_append (d : Dfa) (before later : List Command) :
    d.after (before ++ later) = (d.after before).after later :=
  List.foldl_append

/-- Sets of accepting states change nothing else, however often they are replaced. -/
lemma after_setAccepting (d : Dfa) (sets : List (Std.TreeSet StateNumber)) :
    (d.after (sets.map .setAccepting)).table = d.table ∧
      (d.after (sets.map .setAccepting)).subsets = d.subsets := by
  induction sets generalizing d with
  | nil => exact ⟨rfl, rfl⟩
  | cons accepting sets ih => exact ih (d.setAccepting accepting)

/-- No command brings back what the states stood for. -/
lemma subsets_execute (forgotten : d.subsets = none) (command : Command) :
    (d.execute command).1.subsets = none := by
  cases command with
  | accepts text => exact forgotten
  | setTable table => rfl
  | setAccepting accepting => exact forgotten
  | reload => rfl

/-- What the states stood for stays forgotten. -/
lemma subsets_after (forgotten : d.subsets = none) (commands : List Command) :
    (d.after commands).subsets = none := by
  induction commands generalizing d with
  | nil => exact forgotten
  | cons command commands ih => exact ih (subsets_execute forgotten command)

end Dfa

/-! ### Images of labels -/

namespace Subsets

/-- The labels of the rows, in their order. -/
def labels (s : Subsets) : List Label := s.rows.map Prod.fst

/-- The number of a label is its place in the order of the rows, from 1. -/
def HasNumber (s : Subsets) (label : Label) (n : StateNumber) : Prop :=
  ∃ i, n = i + 1 ∧ s.labels[i]? = some label

/-- A table is the image of some labels, each of which it replaces by its number. -/
structure NumberedBy (s : Subsets) (t : DfaTable) : Prop where
  nodup : s.labels.Nodup
  /-- There are as many rows as labels, from 1. -/
  mem_iff : ∀ n : ℕ, n ∈ t ↔ 1 ≤ n ∧ n ≤ s.labels.length
  chars_nodup : ∀ row ∈ s.rows, (row.2.map Prod.fst).Nodup
  /-- A row has the characters of the moves of its label, and each leads to the number of the label
  that the move leads to. -/
  row : ∀ (i : ℕ) label moves, s.rows[i]? = some (label, moves) → ∃ row, t[i + 1]? = some row ∧
    (∀ c, c ∈ row ↔ c ∈ moves.map Prod.fst) ∧
    ∀ c target, (c, target) ∈ moves → ∃ m, row[c]? = some m ∧ s.HasNumber target m
  reached : ∀ n ∈ t, ∃ word, t.follow? Dfa.start word = some n
  accepting_mem : ∀ label ∈ s.accepting, label ∈ s.labels

end Subsets

namespace NumberedTable

variable {t : NumberedTable} {label : Label} {c : Char} {n : ℕ}

/-- The labels are numbered by their places. -/
lemma hasNumber_subsets_iff : t.subsets.HasNumber label n ↔ t.labelNumber? label = some n := by
  rw [Subsets.HasNumber, Subsets.labels, map_fst_rows_subsets, labelNumber?_eq_some_iff]

/-- The numbers of the labels are those from 1 to the number of labels. -/
lemma exists_labelNumber_iff_bounds :
    (∃ label, t.labelNumber? label = some n) ↔ 1 ≤ n ∧ n ≤ t.labels.length := by
  constructor
  · rintro ⟨label, number⟩
    obtain ⟨i, rfl, place⟩ := labelNumber?_eq_some_iff.1 number
    exact ⟨Nat.le_add_left 1 i, (List.getElem?_eq_some_iff.1 place).1⟩
  · rintro ⟨positive, small⟩
    have bound : n - 1 < t.labels.length := by omega
    refine ⟨t.labels[n - 1], labelNumber?_eq_some_iff.2 ⟨n - 1, ?_, ?_⟩⟩
    · exact (Nat.sub_add_cancel positive).symm
    · exact List.getElem?_eq_getElem bound

end NumberedTable

namespace Automaton

variable {nfa : Automaton} {label : Label} {n : ℕ}

/-- Every label that a move of a discovered label leads to has a number. -/
lemma exists_labelNumber_of_mem_moves (discovered : label ∈ nfa.table.labels) {c : Char}
    {target : Label} (move : (c, target) ∈ nfa.table.moves label) :
    ∃ n, nfa.table.labelNumber? target = some n := by
  obtain ⟨used, destination, nonempty⟩ := NumberedTable.mem_moves_iff.1 move
  refine NumberedTable.exists_labelNumber_iff.2 ?_
  refine (Built.closed_labels nfa).next _ discovered _ ?_
  exact NumberedTable.mem_successors_iff.2 ⟨c, used, destination, nonempty⟩

/-- No move of a discovered label is lost in its row. -/
lemma map_fst_numberedRow (discovered : label ∈ nfa.table.labels) :
    (nfa.table.numberedRow label).map Prod.fst = (nfa.table.moves label).map Prod.fst := by
  -- a row drops the moves to labels without a number, of which there are none
  rw [NumberedTable.numberedRow, List.map_filterMap, ← List.filterMap_eq_map]
  refine List.filterMap_congr fun move mem => ?_
  obtain ⟨n, number⟩ := exists_labelNumber_of_mem_moves discovered mem
  simp [number]

/-- The table of the deterministic automaton is the image of the labels. -/
lemma Built.numberedBy (built : nfa.Built) :
    nfa.table.subsets.NumberedBy nfa.determinize.table where
  nodup := by
    rw [Subsets.labels, NumberedTable.map_fst_rows_subsets]
    exact nfa.table.nodup_labels
  mem_iff n := by
    rw [Subsets.labels, NumberedTable.map_fst_rows_subsets, mem_determinize_table_iff]
    exact NumberedTable.exists_labelNumber_iff_bounds
  chars_nodup row mem := by
    obtain ⟨label, -, rfl⟩ := List.mem_map.1 mem
    exact NumberedTable.nodup_map_fst_moves nfa.nodup_alphabet label
  row i label moves found := by
    simp only [NumberedTable.subsets, List.getElem?_map, Option.map_eq_some_iff,
      Prod.mk.injEq] at found
    obtain ⟨label, place, rfl, rfl⟩ := found
    have number := NumberedTable.labelNumber?_eq_some_iff.2 ⟨i, rfl, place⟩
    have discovered := List.mem_of_getElem? place
    refine ⟨_, NumberedTable.getElem?_table_subsets_eq_some_iff.2 ⟨_, number, rfl⟩, ?_, ?_⟩
    · intro c
      rw [Std.TreeMap.mem_ofList, List.contains_iff_mem, map_fst_numberedRow discovered]
    · intro c target move
      obtain ⟨m, hm⟩ := exists_labelNumber_of_mem_moves discovered move
      obtain ⟨-, rfl, -⟩ := NumberedTable.mem_moves_iff.1 move
      have distinct := NumberedTable.nodup_map_fst_numberedRow nfa.nodup_alphabet label
      refine ⟨m, ?_, NumberedTable.hasNumber_subsets_iff.2 hm⟩
      rw [getElem?_ofList_eq_some_iff distinct]
      exact NumberedTable.mem_numberedRow_iff.2 ⟨move, hm⟩
  reached n row := built.exists_word_of_mem_table row
  accepting_mem label accepts := by
    rw [Subsets.labels, NumberedTable.map_fst_rows_subsets]
    exact (List.mem_filter.1 accepts).1

/-- The accepting states of the deterministic automaton are the numbers of the accepting labels. -/
lemma mem_accepting_determinize_iff :
    n ∈ nfa.determinize.accepting ↔
      ∃ label ∈ nfa.table.subsets.accepting, nfa.table.subsets.HasNumber label n := by
  simp only [NumberedTable.hasNumber_subsets_iff]
  change n ∈ nfa.table.subsets.acceptingNumbers ↔ _
  rw [Subsets.acceptingNumbers, Std.TreeSet.mem_ofList, List.contains_iff_mem, List.mem_filterMap]
  rfl

end Automaton

/-! ### Commands and labels -/

/-- However often the accepting states of a deterministic automaton are replaced, it remembers the
labels that it was made from, and its table is the image of these labels. Before that its accepting
states are the numbers of the accepting labels. Once its table is replaced, it remembers no labels,
whatever happens before and after. -/
theorem determinize_numbers_labels {nfa : Automaton} {f : Fragment} {a : Arena}
    (h : Automaton.build f a = .ok nfa) :
    (∀ sets : List (Std.TreeSet StateNumber),
      (nfa.determinize.after (sets.map .setAccepting)).subsets = some nfa.table.subsets ∧
      nfa.table.subsets.NumberedBy (nfa.determinize.after (sets.map .setAccepting)).table) ∧
    (∀ n, n ∈ nfa.determinize.accepting ↔
      ∃ label ∈ nfa.table.subsets.accepting, nfa.table.subsets.HasNumber label n) ∧
    ∀ before table later,
      (nfa.determinize.after (before ++ .setTable table :: later)).subsets = none := by
  refine ⟨fun sets => ?_, fun n => Automaton.mem_accepting_determinize_iff,
    fun before table later => ?_⟩
  · obtain ⟨table, subsets⟩ := nfa.determinize.after_setAccepting sets
    refine ⟨subsets, ?_⟩
    rw [table]
    exact (Automaton.Built.of_build h).numberedBy
  · rw [Dfa.after_append]
    exact Dfa.subsets_after rfl later

theorem determinize_numbers_labels_tangled :
    ∃ nfa, Automaton.build ⟨0, 3⟩ Automaton.tangledArena = .ok nfa ∧
      (nfa.determinize.after [.setAccepting ∅, .setAccepting {2}]).subsets =
        some nfa.table.subsets ∧
      nfa.table.subsets.NumberedBy
        (nfa.determinize.after [.setAccepting ∅, .setAccepting {2}]).table ∧
      (∀ n, n ∈ nfa.determinize.accepting ↔
        ∃ label ∈ nfa.table.subsets.accepting, nfa.table.subsets.HasNumber label n) ∧
      (nfa.determinize.after [.setAccepting ∅, .setTable ∅, .setAccepting {1}]).subsets = none := by
  have h : Automaton.build ⟨0, 3⟩ Automaton.tangledArena =
      .ok ⟨Automaton.tangledArena, 0, 3⟩ := by decide +kernel
  obtain ⟨numbered, accepting, forgotten⟩ := determinize_numbers_labels h
  obtain ⟨subsets, table⟩ := numbered [∅, {2}]
  exact ⟨_, h, subsets, table, accepting, forgotten [.setAccepting ∅] ∅ [.setAccepting {1}]⟩

end PatternAutomata
