import PatternAutomata.Proofs.Labels
import PatternAutomata.Proofs.Search

/-!
# Determinization keeps the language

A deterministic automaton that is made by determinization numbers the labels in the order of their
discovery. Following a word from the start leads to the number of the label after that word, and
fails exactly when that label is empty (`follow?_eq_some_iff`). With `Built.stands_labelAfter_iff`
this relates the run of the deterministic automaton to the paths of the nondeterministic one, and
hence to its search.
-/

namespace PatternAutomata

namespace DfaTable

/-- A table that is made from rows with distinct numbers holds exactly these rows. -/
lemma getElem?_ofRows_eq_some_iff {rows : List (StateNumber × List (Char × StateNumber))}
    (numbers : (rows.map Prod.fst).Nodup) {n : ℕ} {r : Std.TreeMap Char StateNumber} :
    (ofRows rows)[n]? = some r ↔ ∃ row, (n, row) ∈ rows ∧ r = Std.TreeMap.ofList row := by
  have distinct : ((rows.map fun row => (row.1, (Std.TreeMap.ofList row.2 : Std.TreeMap Char
      StateNumber))).map Prod.fst).Nodup := by
    rwa [List.map_map]
  rw [ofRows, getElem?_ofList_eq_some_iff distinct, List.mem_map]
  constructor
  · rintro ⟨⟨_, row⟩, mem, same⟩
    obtain ⟨rfl, rfl⟩ := Prod.mk.inj same
    exact ⟨row, mem, rfl⟩
  · rintro ⟨row, mem, rfl⟩
    exact ⟨(n, row), mem, rfl⟩

end DfaTable

namespace NumberedTable

variable {t : NumberedTable} {label : Label} {c : Char} {word : List Char} {n m : ℕ}

/-- The number of a label is its place in the order of discovery, from 1. -/
def labelNumber? (t : NumberedTable) (label : Label) : Option StateNumber :=
  t.subsets.numbering[label]?

/-- The labels in the order of discovery are the labels of the rows. -/
lemma map_fst_rows_subsets (t : NumberedTable) : t.subsets.rows.map Prod.fst = t.labels := by
  simp [subsets, Function.comp_def]

/-- A label has the number `i + 1` when it is discovered at place `i`. -/
lemma labelNumber?_eq_some_iff :
    t.labelNumber? label = some n ↔ ∃ i, n = i + 1 ∧ t.labels[i]? = some label := by
  rw [labelNumber?, Subsets.numbering, map_fst_rows_subsets]
  exact getElem?_ofList_zipIdx t.nodup_labels

/-- The labels that are discovered have a number. -/
lemma exists_labelNumber_iff : (∃ n, t.labelNumber? label = some n) ↔ label ∈ t.labels := by
  rw [List.mem_iff_getElem?]
  constructor
  · rintro ⟨n, hn⟩
    obtain ⟨i, -, hi⟩ := labelNumber?_eq_some_iff.1 hn
    exact ⟨i, hi⟩
  · rintro ⟨i, hi⟩
    exact ⟨i + 1, labelNumber?_eq_some_iff.2 ⟨i, rfl, hi⟩⟩

/-- Different labels have different numbers. -/
lemma labelNumber?_inj {label' : Label} (h : t.labelNumber? label = some n)
    (h' : t.labelNumber? label' = some n) : label = label' := by
  obtain ⟨i, rfl, hi⟩ := labelNumber?_eq_some_iff.1 h
  obtain ⟨j, hij, hj⟩ := labelNumber?_eq_some_iff.1 h'
  obtain rfl : i = j := by omega
  rw [hi] at hj
  exact Option.some_inj.1 hj

/-- The row of a label in the deterministic table: the characters that lead anywhere, with the
numbers of their destinations. -/
def numberedRow (t : NumberedTable) (label : Label) : List (Char × StateNumber) :=
  (t.moves label).filterMap fun move => (t.labelNumber? move.2).map fun n => (move.1, n)

/-- The rows of the labels under the numbers of the labels. -/
def numberedRows (t : NumberedTable) : List (StateNumber × List (Char × StateNumber)) :=
  (t.labels.zipIdx 1).map fun entry => (entry.2, t.numberedRow entry.1)

/-- The deterministic table holds the rows of the labels under the numbers of the labels. -/
lemma table_subsets (t : NumberedTable) : t.subsets.table = .ofRows t.numberedRows := by
  simp only [Subsets.table, subsets, List.zipIdx_map, List.map_map]
  rfl

/-- The numbers of the rows are those of the labels. -/
lemma mem_numberedRows_iff {row : List (Char × StateNumber)} :
    (n, row) ∈ t.numberedRows ↔
      ∃ label, t.labelNumber? label = some n ∧ row = t.numberedRow label := by
  simp only [numberedRows, labelNumber?_eq_some_iff, List.mem_map, Prod.mk.injEq, Prod.exists,
    List.mk_mem_zipIdx_iff_le_and_getElem?_sub]
  constructor
  · rintro ⟨label, k, ⟨positive, place⟩, rfl, rfl⟩
    exact ⟨label, ⟨k - 1, (Nat.sub_add_cancel positive).symm, place⟩, rfl⟩
  · rintro ⟨label, ⟨i, rfl, place⟩, rfl⟩
    exact ⟨label, i + 1, ⟨Nat.le_add_left 1 i, place⟩, rfl, rfl⟩

/-- Each number has one row. -/
lemma nodup_map_fst_numberedRows (t : NumberedTable) : (t.numberedRows.map Prod.fst).Nodup := by
  have places : (Prod.fst ∘ fun entry : Label × ℕ => (entry.2, t.numberedRow entry.1)) = Prod.snd :=
    rfl
  rw [numberedRows, List.map_map, places, List.zipIdx_map_snd]
  exact List.nodup_range'

/-- The row with a number is that of the label with the number. -/
lemma getElem?_table_subsets_eq_some_iff {row : Std.TreeMap Char StateNumber} :
    t.subsets.table[n]? = some row ↔
      ∃ label, t.labelNumber? label = some n ∧ row = .ofList (t.numberedRow label) := by
  rw [table_subsets, DfaTable.getElem?_ofRows_eq_some_iff t.nodup_map_fst_numberedRows]
  simp only [mem_numberedRows_iff]
  exact ⟨fun ⟨_, ⟨label, number, same⟩, h⟩ => ⟨label, number, same ▸ h⟩,
    fun ⟨label, number, h⟩ => ⟨_, ⟨label, number, rfl⟩, h⟩⟩

/-- The moves of a label, seen through the numbers of their destinations. -/
lemma mem_numberedRow_iff :
    (c, m) ∈ t.numberedRow label ↔
      (c, t.destination label c) ∈ t.moves label ∧
        t.labelNumber? (t.destination label c) = some m := by
  rw [numberedRow, List.mem_filterMap]
  constructor
  · rintro ⟨⟨d, target⟩, move, same⟩
    obtain ⟨k, hk, same⟩ := Option.map_eq_some_iff.1 same
    obtain ⟨rfl, rfl⟩ := Prod.mk.inj same
    obtain ⟨-, rfl, -⟩ := mem_moves_iff.1 move
    exact ⟨move, hk⟩
  · rintro ⟨move, hm⟩
    exact ⟨_, move, Option.map_eq_some_iff.2 ⟨m, hm, rfl⟩⟩

/-- A label has at most one move for each character. -/
lemma nodup_map_fst_moves (alphabet : t.alphabet.Nodup) (label : Label) :
    ((t.moves label).map Prod.fst).Nodup :=
  List.pairwise_map.2 (List.Pairwise.filter _ (List.pairwise_map.2 alphabet))

/-- A row holds each character of the alphabet at most once. -/
lemma nodup_map_fst_numberedRow (alphabet : t.alphabet.Nodup) (label : Label) :
    ((t.numberedRow label).map Prod.fst).Nodup := by
  have distinct := List.pairwise_map.1 (nodup_map_fst_moves alphabet label)
  rw [List.Nodup, List.pairwise_map, numberedRow, List.pairwise_filterMap]
  refine distinct.imp fun different x hx y hy => ?_
  obtain ⟨_, -, rfl⟩ := Option.map_eq_some_iff.1 hx
  obtain ⟨_, -, rfl⟩ := Option.map_eq_some_iff.1 hy
  exact different

/-- A character leads from the number of a label to the number of its destination. -/
lemma target?_subsets_eq_some_iff (alphabet : t.alphabet.Nodup) :
    t.subsets.table.target? n c = some m ↔
      ∃ label, t.labelNumber? label = some n ∧ (c, t.destination label c) ∈ t.moves label ∧
        t.labelNumber? (t.destination label c) = some m := by
  rw [DfaTable.target?_eq_some_iff]
  constructor
  · rintro ⟨row, found, hm⟩
    obtain ⟨label, number, rfl⟩ := getElem?_table_subsets_eq_some_iff.1 found
    rw [getElem?_ofList_eq_some_iff (nodup_map_fst_numberedRow alphabet label)] at hm
    exact ⟨label, number, mem_numberedRow_iff.1 hm⟩
  · rintro ⟨label, number, hm⟩
    refine ⟨_, getElem?_table_subsets_eq_some_iff.2 ⟨label, number, rfl⟩, ?_⟩
    rw [getElem?_ofList_eq_some_iff (nodup_map_fst_numberedRow alphabet label)]
    exact mem_numberedRow_iff.2 hm

/-- The accepting numbers are those of the accepting labels. -/
lemma contains_acceptingNumbers_iff (h : t.labelNumber? label = some n) :
    t.subsets.acceptingNumbers.contains n = true ↔ t.labelAccepts label = true := by
  simp only [Subsets.acceptingNumbers, Std.TreeSet.contains_ofList, List.contains_iff_mem]
  rw [List.mem_filterMap]
  constructor
  · rintro ⟨label', mem, number⟩
    obtain rfl := labelNumber?_inj number h
    exact (List.mem_filter.1 mem).2
  · intro accepts
    exact ⟨label, List.mem_filter.2 ⟨exists_labelNumber_iff.1 ⟨n, h⟩, accepts⟩, h⟩

end NumberedTable

namespace Automaton

variable {nfa : Automaton} {label : Label} {c : Char} {word : List Char} {n m : ℕ}

/-- The alphabet of a table holds no character twice. -/
lemma nodup_alphabet (nfa : Automaton) : nfa.table.alphabet.Nodup := nodup_distinct _

/-- A character leads from the number of a label to the number of its destination, unless that is
empty. -/
lemma target?_eq_some_iff :
    nfa.determinize.table.target? n c = some m ↔
      ∃ label, nfa.table.labelNumber? label = some n ∧ nfa.table.destination label c ≠ [] ∧
        nfa.table.labelNumber? (nfa.table.destination label c) = some m := by
  refine (NumberedTable.target?_subsets_eq_some_iff nfa.nodup_alphabet).trans ?_
  refine exists_congr fun label => and_congr_right fun _ => and_congr_left fun _ => ?_
  rw [NumberedTable.mem_moves_iff]
  exact ⟨fun h => h.2.2, fun h => ⟨Built.mem_alphabet_of_destination h, rfl, h⟩⟩

/-- The start is the number of the label after the empty word. -/
lemma labelNumber?_labelAfter_nil (nfa : Automaton) :
    nfa.table.labelNumber? (nfa.table.labelAfter []) = some 1 := by
  refine NumberedTable.labelNumber?_eq_some_iff.2 ⟨0, rfl, ?_⟩
  have positive : nfa.table.labelBound = nfa.table.labelBound - 1 + 1 := by
    have : 0 < nfa.table.labelBound := Nat.pow_pos (Nat.succ_pos _)
    omega
  rw [← List.head?_eq_getElem?, NumberedTable.labels, positive]
  exact head?_preorder _ _ _

/-- A word leads from the start to the number of the label after it, unless that is empty. -/
theorem follow?_eq_some_iff (built : nfa.Built) (word : List Char) (n : ℕ) :
    nfa.determinize.table.follow? Dfa.start word = some n ↔
      nfa.table.labelAfter word ≠ [] ∧
        nfa.table.labelNumber? (nfa.table.labelAfter word) = some n := by
  induction word using List.reverseRecOn generalizing n with
  | nil =>
    have nonempty : nfa.table.labelAfter [] ≠ [] := by
      obtain ⟨k, hk, -⟩ := (built.stands_labelAfter_iff [] nfa.entry).2 (.refl _)
      exact List.ne_nil_of_mem hk
    rw [nfa.labelNumber?_labelAfter_nil]
    simp [DfaTable.follow?, Dfa.start, nonempty]
  | append_singleton word c ih =>
    have last : ∀ k, nfa.determinize.table.follow? k [c] = nfa.determinize.table.target? k c := by
      intro k
      unfold DfaTable.follow?
      cases nfa.determinize.table.target? k c <;> rfl
    rw [DfaTable.follow?_append, Option.bind_eq_some_iff,
      NumberedTable.labelAfter_append_singleton]
    constructor
    · rintro ⟨k, before, after⟩
      obtain ⟨-, number⟩ := (ih k).1 before
      rw [last] at after
      obtain ⟨label, number', nonempty, target⟩ := target?_eq_some_iff.1 after
      obtain rfl := NumberedTable.labelNumber?_inj number' number
      exact ⟨nonempty, target⟩
    · rintro ⟨nonempty, target⟩
      have before : nfa.table.labelAfter word ≠ [] := by
        intro empty
        exact nonempty (by rw [empty, NumberedTable.destination_nil])
      obtain ⟨k, number⟩ :=
        NumberedTable.exists_labelNumber_iff.2 (Built.labelAfter_mem_labels before)
      refine ⟨k, (ih k).2 ⟨before, number⟩, ?_⟩
      rw [last]
      exact target?_eq_some_iff.2 ⟨_, number, nonempty, target⟩

/-- The deterministic automaton accepts a text exactly when a path of the nondeterministic one from
its entry to an accepting state spells it. -/
lemma Built.accepts_determinize_iff (built : nfa.Built) (text : String) :
    nfa.determinize.accepts text = true ↔
      ∃ t, nfa.arena.Path nfa.entry text.toList t ∧ (nfa.arena.state t).accepting = true := by
  have stands := built.stands_labelAfter_iff text.toList
  simp only [← stands]
  rw [← labelAccepts_iff]
  unfold Dfa.accepts
  split
  · rename_i none
    -- There is no target on the way: the label after the text is empty.
    have empty : nfa.table.labelAfter text.toList = [] := by
      by_contra nonempty
      obtain ⟨n, number⟩ :=
        NumberedTable.exists_labelNumber_iff.2 (Built.labelAfter_mem_labels nonempty)
      rw [(follow?_eq_some_iff built _ n).2 ⟨nonempty, number⟩] at none
      cases none
    simp [empty, NumberedTable.labelAccepts]
  · rename_i n some
    obtain ⟨-, number⟩ := (follow?_eq_some_iff built _ n).1 some
    exact NumberedTable.contains_acceptingNumbers_iff number

/-- An automaton that is built and its deterministic automaton accept the same texts. -/
theorem accepts_eq_accepts_determinize {f : Fragment} {a : Arena} (h : build f a = .ok nfa)
    (text : String) : nfa.accepts text = nfa.determinize.accepts text := by
  have built := Built.of_build h
  rw [Bool.eq_iff_iff, built.accepts_iff, built.accepts_determinize_iff]

/-- An arena with a cycle of edges that consume nothing, two accepting states that can be reached,
and two states that cannot. -/
def tangledArena : Arena :=
  ⟨#[⟨[(.char 'a', [1]), (.epsilon, [1])], false⟩, ⟨[(.epsilon, [0, 2])], true⟩,
    ⟨[(.char 'b', [3, 0])], false⟩, ⟨[], true⟩, ⟨[(.char 'x', [5])], false⟩, ⟨[], true⟩]⟩

theorem accepts_eq_accepts_determinize_tangled :
    ∃ nfa, build ⟨0, 3⟩ tangledArena = .ok nfa ∧
      nfa.accepts "aba" = nfa.determinize.accepts "aba" :=
  ⟨⟨tangledArena, 0, 3⟩, by decide +kernel,
    accepts_eq_accepts_determinize (f := ⟨0, 3⟩) (a := tangledArena) (by decide +kernel) "aba"⟩

end Automaton

end PatternAutomata
