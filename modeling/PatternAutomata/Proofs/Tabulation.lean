import PatternAutomata.Proofs.Reloading

/-!
# Tables show all that can be reached

The rows of a numbered table are written by looking up the numbers of targets and of closures, and a
state without a number would be left out without a trace. There is none: edges and closures of a
state that can be reached lead to states that can be reached, and these are the states that have a
number. So every row is its state, number by number and in the same order, and the numbers, the
accepting numbers and the alphabet are those of the states that can be reached
(`Automaton.Tabulated`).

That a character of the alphabet stands on an edge needs more than an automaton that is built, since
a label of a state might stand before no targets. Constructions leave no such labels.
-/

namespace PatternAutomata

/-- Nothing is left out of a list when each of its members has a value. -/
lemma map_some_filterMap {α β : Type} {f : α → Option β} {l : List α}
    (h : ∀ a ∈ l, ∃ b, f a = some b) : (l.filterMap f).map some = l.map f := by
  rw [List.map_filterMap, ← List.filterMap_eq_map]
  refine List.filterMap_congr fun a mem => ?_
  obtain ⟨b, value⟩ := h a mem
  simp [value]

/-- The targets from a number are those of its row. -/
lemma NumberedTable.targets_of_row? {t : NumberedTable} {n : StateNumber} {row : NumberedRow}
    (h : t.row? n = some row) (c : Char) : t.targets c n = row.targets c := by
  rw [targets, h]

namespace Automaton

/-- The numbered table of an automaton shows the states that can be reached, as they are. -/
structure Tabulated (nfa : Automaton) : Prop where
  /-- The states that can be reached by edges of any kind are those that have a number. -/
  isSome_number?_iff : ∀ id, (nfa.number? id).isSome = true ↔ nfa.arena.Reach nfa.entry id
  number?_entry : nfa.number? nfa.entry = some 1
  /-- Each of the numbers from 1 to the number of rows is that of exactly one state. -/
  bijOn : Set.BijOn nfa.number? {id | nfa.arena.Reach nfa.entry id}
    (some '' Set.Icc 1 nfa.table.size)
  /-- A row lists the numbers of the targets and of the closure of its state, all of them in the
  same order. -/
  row : ∀ id n, nfa.number? id = some n → ∃ row, nfa.table.row? n = some row ∧
    (∀ c, (row.targets c).map some = ((nfa.arena.state id).targets (.char c)).map nfa.number?) ∧
    row.closure.map some = (nfa.arena.closure id).map nfa.number?
  nodup_accepting : nfa.table.accepting.Nodup
  mem_accepting_iff : ∀ n, n ∈ nfa.table.accepting ↔
    ∃ id, nfa.arena.Reach nfa.entry id ∧ (nfa.arena.state id).accepting = true ∧
      nfa.number? id = some n
  nodup_alphabet : nfa.table.alphabet.Nodup
  /-- The alphabet holds the characters on the edges of the states that can be reached. -/
  mem_alphabet_iff : ∀ c, c ∈ nfa.table.alphabet ↔
    ∃ id t, nfa.arena.Reach nfa.entry id ∧ t ∈ (nfa.arena.state id).targets (.char c)

variable {nfa : Automaton} {id : StateId} {n : ℕ} {c : Char}

namespace Built

/-- The numbers of states that can be reached are all found. -/
lemma map_some_filterMap_number? (built : nfa.Built) {ids : List StateId}
    (reach : ∀ t ∈ ids, nfa.arena.Reach nfa.entry t) :
    (ids.filterMap nfa.number?).map some = ids.map nfa.number? :=
  map_some_filterMap fun t mem => built.exists_number_iff.2 (reach t mem)

/-- The states that can be reached correspond to the numbers of the rows. -/
lemma bijOn_number? (built : nfa.Built) : Set.BijOn nfa.number?
    {id | nfa.arena.Reach nfa.entry id} (some '' Set.Icc 1 nfa.table.size) := by
  refine ⟨fun id reach => ?_, fun id reach id' _ same => ?_, ?_⟩
  · obtain ⟨n, number⟩ := built.exists_number_iff.2 reach
    exact ⟨n, number?_bounds number, number.symm⟩
  · obtain ⟨n, number⟩ := built.exists_number_iff.2 reach
    exact number?_inj number (same ▸ number)
  · rintro _ ⟨n, ⟨positive, small⟩, rfl⟩
    obtain ⟨id, number⟩ := exists_number_of_bounds positive small
    exact ⟨id, built.reach_of_number number, number⟩

/-- The row of a state leads to the numbers of its targets and holds those of its closure. -/
lemma exists_row (built : nfa.Built) (number : nfa.number? id = some n) :
    ∃ row, nfa.table.row? n = some row ∧
      (∀ c, (row.targets c).map some =
        ((nfa.arena.state id).targets (.char c)).map nfa.number?) ∧
      row.closure.map some = (nfa.arena.closure id).map nfa.number? := by
  have reach := built.reach_of_number number
  have there := row?_of_number number
  refine ⟨_, there, fun c => ?_, ?_⟩
  · rw [← NumberedTable.targets_of_row? there, targets_of_number number]
    refine built.map_some_filterMap_number? fun t mem => ?_
    exact reach.tail (State.mem_successors_of_mem_targets mem)
  · refine built.map_some_filterMap_number? fun t mem => ?_
    exact reach.trans ((built.mem_closure_iff (built.lt_of_reach reach)).1 mem).reach

/-- The table of an automaton that is built is faithful when its labels stand before targets and are
used once in each state. -/
lemma tabulated (built : nfa.Built) (distinct : nfa.arena.LabelsDistinct)
    (lead : nfa.arena.EdgesLead) : nfa.Tabulated where
  isSome_number?_iff id := by rw [Option.isSome_iff_exists, built.exists_number_iff]
  number?_entry := nfa.number?_entry
  bijOn := built.bijOn_number?
  row _ _ := built.exists_row
  nodup_accepting := nodup_filterMap_number? (nfa.nodup_order.filter _)
  mem_accepting_iff n := by
    rw [Automaton.mem_accepting_iff]
    constructor
    · rintro ⟨id, number, accepting⟩
      exact ⟨id, built.reach_of_number number, accepting, number⟩
    · rintro ⟨id, -, accepting, number⟩
      exact ⟨id, number, accepting⟩
  nodup_alphabet := nfa.nodup_alphabet
  mem_alphabet_iff c := by
    constructor
    · intro used
      obtain ⟨id, discovered, targets, edge⟩ := Automaton.mem_alphabet_iff.1 used
      obtain ⟨t, ht⟩ := List.exists_mem_of_ne_nil _ (lead id _ edge)
      exact ⟨id, t, built.mem_order_iff.1 discovered, (distinct id).mem_targets edge ht⟩
    · rintro ⟨id, t, reach, ht⟩
      obtain ⟨n, number⟩ := built.exists_number_iff.2 reach
      exact mem_alphabet number ht

end Built

/-- The numbered table of whatever a script or an expression makes is faithful. -/
theorem construct_tabulated :
    (∀ (s : Script) (made : Array Fragment) (a : Arena),
      (Script.run #[] s).run .empty = .ok (made, a) →
        ∀ f nfa, build f a = .ok nfa → nfa.Tabulated) ∧
    ∀ e nfa, ofExpr e = .ok nfa → nfa.Tabulated := by
  refine ⟨fun s made a run f nfa h => ?_, fun e nfa h => ?_⟩
  · have distinct := Arena.invariant_labelsDistinct.of_run run
    have lead := Arena.invariant_edgesLead.of_run run
    obtain ⟨rfl, -, -⟩ := build_eq_ok_iff.1 h
    exact (Built.of_build h).tabulated distinct lead
  · obtain ⟨run, made⟩ := run_compile_of_ofExpr h
    have distinct := e.compile_keeps Arena.invariant_labelsDistinct run
      Arena.invariant_labelsDistinct.empty
    have lead := e.compile_keeps Arena.invariant_edgesLead run Arena.invariant_edgesLead.empty
    exact (Built.of_build made).tabulated distinct lead

theorem construct_tabulated_doubled :
    (∃ made nfa, (Script.run #[] [.char 'b', .char 'a', .concat 0 0]).run .empty =
        .ok (made, doubledArena) ∧ build ⟨0, 1⟩ doubledArena = .ok nfa ∧ nfa.Tabulated) ∧
    ∃ nfa, ofExpr choiceUnderRepetition = .ok nfa ∧ nfa.Tabulated := by
  constructor
  · have run : (Script.run #[] [.char 'b', .char 'a', .concat 0 0]).run .empty =
        .ok (#[⟨0, 1⟩, ⟨2, 3⟩, ⟨0, 1⟩], doubledArena) := rfl
    have made : build ⟨0, 1⟩ doubledArena = .ok ⟨doubledArena, 0, 1⟩ := by decide +kernel
    exact ⟨_, _, run, made, construct_tabulated.1 _ _ _ run _ _ made⟩
  · obtain ⟨nfa, made, -⟩ := construct_of_yields
      (choiceUnderRepetition.compile_yields (by decide) .empty)
    exact ⟨nfa, made, construct_tabulated.2 _ nfa made⟩

end Automaton

end PatternAutomata
