import PatternAutomata.Automaton.Table
import PatternAutomata.Proofs.Built

/-!
# Numbered tables are faithful

The states that can be reached from the entry are numbered from 1 in the order of their discovery.
A numbered table speaks of numbers alone: its edges and closures are those of the states, with each
state replaced by its number. Since edges and closures lead from states that can be reached only to
others, no target is lost (`mem_targets_iff`, `Built.mem_closure_number_iff`).
-/

namespace PatternAutomata

/-! ### Lists as maps -/

section Keys

variable {α β : Type} [Ord α] [Std.TransOrd α] [Std.LawfulEqOrd α]

/-- A map that is made from a list of distinct keys holds exactly the entries of the list. -/
lemma getElem?_ofList_eq_some_iff {l : List (α × β)} (nodup : (l.map Prod.fst).Nodup) {k : α}
    {v : β} : (Std.TreeMap.ofList l)[k]? = some v ↔ (k, v) ∈ l := by
  classical
  have distinct : l.Pairwise fun a b => ¬compare a.1 b.1 = .eq := by
    simpa [List.Nodup, List.pairwise_map] using nodup
  refine ⟨fun h => ?_, Std.TreeMap.getElem?_ofList_of_mem Std.ReflCmp.compare_self distinct⟩
  have present : k ∈ l.map Prod.fst := by
    by_contra absent
    rw [Std.TreeMap.getElem?_ofList_of_contains_eq_false (by simpa using absent)] at h
    cases h
  obtain ⟨⟨k', v'⟩, mem, rfl⟩ := List.mem_map.1 present
  rw [Std.TreeMap.getElem?_ofList_of_mem Std.ReflCmp.compare_self distinct mem] at h
  rwa [← Option.some_inj.1 h]

/-- The members of a list without repetitions are found under their places, from 1. -/
lemma getElem?_ofList_zipIdx {l : List α} (nodup : l.Nodup) {a : α} {n : Nat} :
    (Std.TreeMap.ofList (l.zipIdx 1))[a]? = some n ↔ ∃ i, n = i + 1 ∧ l[i]? = some a := by
  rw [getElem?_ofList_eq_some_iff (by simpa using nodup),
    List.mk_mem_zipIdx_iff_le_and_getElem?_sub]
  constructor
  · rintro ⟨positive, h⟩
    exact ⟨n - 1, by omega, h⟩
  · rintro ⟨i, rfl, h⟩
    exact ⟨by omega, h⟩

end Keys

/-- A character leads from a state to the same targets, whichever way its edges are listed. -/
lemma State.lookup_charEdges (s : State) (c : Char) :
    s.charEdges.lookup c = s.edges.lookup (.char c) := by
  unfold charEdges
  induction s.edges with
  | nil => rfl
  | cons edge edges ih =>
    obtain ⟨symbol, targets⟩ := edge
    cases symbol with
    | epsilon =>
      have : (Symbol.char c == .epsilon) = false := rfl
      simpa [List.lookup_cons, this] using ih
    | char d =>
      by_cases h : c = d
      · simp [h]
      · have symbols : (Symbol.char c == .char d) = false := by simpa using h
        have chars : (c == d) = false := by simpa using h
        simpa [List.lookup_cons, symbols, chars] using ih

/-- The characters with targets are those of the edges. -/
lemma State.mem_charEdges_of_mem_targets {s : State} {c : Char} {t : StateId}
    (h : t ∈ s.targets (.char c)) : c ∈ s.charEdges.map Prod.fst := by
  rw [targets, ← lookup_charEdges] at h
  cases found : s.charEdges.lookup c with
  | none => simp [found] at h
  | some targets =>
    obtain ⟨before, after, split, -⟩ := List.lookup_eq_some_iff.1 found
    exact List.mem_map.2 ⟨(c, targets), by simp [split], rfl⟩

namespace Automaton

variable {nfa : Automaton} {id t : StateId} {n k : ℕ} {c : Char}

/-- The order of an automaton lists no state twice. -/
lemma nodup_order (nfa : Automaton) : nfa.order.Nodup := nodup_preorder _ _ _

/-! ### Numbers of states -/

/-- The number of a state is its place in the order, from 1. -/
lemma number?_eq_some_iff : nfa.number? id = some n ↔ ∃ i, n = i + 1 ∧ nfa.order[i]? = some id :=
  getElem?_ofList_zipIdx nfa.nodup_order

/-- The entry is number 1. -/
lemma number?_entry (nfa : Automaton) : nfa.number? nfa.entry = some 1 := by
  refine number?_eq_some_iff.2 ⟨0, rfl, ?_⟩
  rw [← List.head?_eq_getElem?]
  exact head?_preorder _ _ _

/-- Different states have different numbers. -/
lemma number?_inj (h : nfa.number? id = some n) (h' : nfa.number? t = some n) : id = t := by
  obtain ⟨i, rfl, hi⟩ := number?_eq_some_iff.1 h
  obtain ⟨j, hij, hj⟩ := number?_eq_some_iff.1 h'
  obtain rfl : i = j := by omega
  rw [hi] at hj
  exact Option.some_inj.1 hj

/-- The states in the order have a number. -/
lemma exists_number_iff : (∃ n, nfa.number? id = some n) ↔ id ∈ nfa.order := by
  rw [List.mem_iff_getElem?]
  constructor
  · rintro ⟨n, hn⟩
    obtain ⟨i, -, hi⟩ := number?_eq_some_iff.1 hn
    exact ⟨i, hi⟩
  · rintro ⟨i, hi⟩
    exact ⟨i + 1, number?_eq_some_iff.2 ⟨i, rfl, hi⟩⟩

/-- Numbers are from 1 to the number of rows. -/
lemma number?_bounds (h : nfa.number? id = some n) : 1 ≤ n ∧ n ≤ nfa.table.size := by
  obtain ⟨i, rfl, hi⟩ := number?_eq_some_iff.1 h
  have : i < nfa.order.length := (List.getElem?_eq_some_iff.1 hi).1
  simp only [table, NumberedTable.size, List.size_toArray, List.length_map]
  omega

/-- Numbering a list without repetitions gives a list without repetitions. -/
lemma nodup_filterMap_number? {ids : List StateId} (nodup : ids.Nodup) :
    (ids.filterMap nfa.number?).Nodup :=
  nodup.filterMap fun _ _ _ h h' => number?_inj h h'

/-! ### Rows -/

/-- The row of a number is made from the state with that number. -/
lemma row?_eq_some_iff {row : NumberedRow} :
    nfa.table.row? n = some row ↔ ∃ id, nfa.number? id = some n ∧
      row = ⟨(nfa.arena.state id).charEdges.map fun edge =>
        (edge.1, edge.2.filterMap nfa.number?), (nfa.arena.closure id).filterMap nfa.number?⟩ := by
  cases n with
  | zero =>
    refine ⟨fun h => (nomatch h), fun ⟨id, h, _⟩ => ?_⟩
    have := number?_bounds h
    omega
  | succ i =>
    have places : ∀ id, nfa.number? id = some (i + 1) ↔ nfa.order[i]? = some id := by
      intro id
      rw [number?_eq_some_iff]
      exact ⟨fun ⟨j, hij, h⟩ => by rwa [Nat.succ.inj hij], fun h => ⟨i, rfl, h⟩⟩
    simp only [places, NumberedTable.row?, table, List.getElem?_toArray, List.getElem?_map,
      Option.map_eq_some_iff]
    exact exists_congr fun id => and_congr_right fun _ => eq_comm

/-- The row of a number that a state has. -/
lemma row?_of_number (h : nfa.number? id = some n) :
    nfa.table.row? n = some ⟨(nfa.arena.state id).charEdges.map fun edge =>
      (edge.1, edge.2.filterMap nfa.number?), (nfa.arena.closure id).filterMap nfa.number?⟩ :=
  row?_eq_some_iff.2 ⟨id, h, rfl⟩

/-- The targets of a row are the numbers of the targets of its state. -/
lemma targets_of_number (h : nfa.number? id = some n) (c : Char) :
    nfa.table.targets c n = ((nfa.arena.state id).targets (.char c)).filterMap nfa.number? := by
  rw [NumberedTable.targets, row?_of_number h, State.targets, ← State.lookup_charEdges]
  simp only [NumberedRow.targets]
  induction (nfa.arena.state id).charEdges with
  | nil => rfl
  | cons edge edges ih =>
    rw [List.map_cons, List.lookup_cons, List.lookup_cons]
    cases c == edge.1
    · exact ih
    · rfl

/-- The closure of a row holds the numbers of the closure of its state. -/
lemma closure_of_number (h : nfa.number? id = some n) :
    nfa.table.closure n = (nfa.arena.closure id).filterMap nfa.number? := by
  rw [NumberedTable.closure, row?_of_number h]

/-- Whatever a row leads to, it is the row of a state. -/
lemma exists_number_of_mem_targets (h : k ∈ nfa.table.targets c n) :
    ∃ id, nfa.number? id = some n := by
  unfold NumberedTable.targets at h
  split at h
  · cases h
  · rename_i row hrow
    obtain ⟨id, hid, -⟩ := row?_eq_some_iff.1 hrow
    exact ⟨id, hid⟩

/-- Whatever the closure of a row holds, it is the row of a state. -/
lemma exists_number_of_mem_closure (h : k ∈ nfa.table.closure n) :
    ∃ id, nfa.number? id = some n := by
  unfold NumberedTable.closure at h
  split at h
  · cases h
  · rename_i row hrow
    obtain ⟨id, hid, -⟩ := row?_eq_some_iff.1 hrow
    exact ⟨id, hid⟩

/-- No target of a state with a number is lost in the table. -/
lemma mem_targets_iff (h : nfa.number? id = some n) :
    k ∈ nfa.table.targets c n ↔
      ∃ t ∈ (nfa.arena.state id).targets (.char c), nfa.number? t = some k := by
  rw [targets_of_number h, List.mem_filterMap]

/-- The characters of the states that can be reached make up the alphabet. -/
lemma mem_alphabet (h : nfa.number? id = some n)
    (ht : t ∈ (nfa.arena.state id).targets (.char c)) : c ∈ nfa.table.alphabet := by
  simp only [table, alphabet, mem_distinct, List.mem_flatMap]
  exact ⟨id, exists_number_iff.1 ⟨n, h⟩, State.mem_charEdges_of_mem_targets ht⟩

/-- The accepting numbers are those of accepting states. -/
lemma mem_accepting_iff :
    n ∈ nfa.table.accepting ↔
      ∃ id, nfa.number? id = some n ∧ (nfa.arena.state id).accepting = true := by
  simp only [table, acceptingStates]
  rw [List.mem_filterMap]
  constructor
  · rintro ⟨id, mem, hn⟩
    exact ⟨id, hn, (List.mem_filter.1 mem).2⟩
  · rintro ⟨id, hn, accepting⟩
    exact ⟨id, List.mem_filter.2 ⟨exists_number_iff.1 ⟨n, hn⟩, accepting⟩, hn⟩

namespace Built

/-- A state has a number exactly when it can be reached. -/
lemma exists_number_iff (built : nfa.Built) :
    (∃ n, nfa.number? id = some n) ↔ nfa.arena.Reach nfa.entry id := by
  rw [Automaton.exists_number_iff, built.mem_order_iff]

/-- The state with a number can be reached. -/
lemma reach_of_number (built : nfa.Built) (h : nfa.number? id = some n) :
    nfa.arena.Reach nfa.entry id :=
  built.exists_number_iff.1 ⟨n, h⟩

/-- The closure of a row holds the numbers of the states that are reached from its state without
consuming anything. -/
lemma mem_closure_number_iff (built : nfa.Built) (h : nfa.number? id = some n) :
    k ∈ nfa.table.closure n ↔ ∃ t, nfa.arena.Path id [] t ∧ nfa.number? t = some k := by
  rw [closure_of_number h, List.mem_filterMap]
  have hid := built.lt_of_reach (built.reach_of_number h)
  exact exists_congr fun t => and_congr_left fun _ => built.mem_closure_iff hid

end Built

end Automaton

end PatternAutomata
