import Mathlib.Data.Fintype.BigOperators
import PatternAutomata.Dfa.Determinize
import PatternAutomata.Proofs.Numbering

/-!
# Labels and the states they stand for

A label is a list of numbers and stands for the states with these numbers. The label after a word,
that is, the one to which the characters of the word lead from the closure of the entry, stands for
exactly the states that paths from the entry reach with that word (`Built.stands_labelAfter_iff`).

Labels are lists without repetitions of numbers from 1 to the size of the table, of which there are
no more than `NumberedTable.labelBound` (`length_le_labelBound`). The walk through the labels goes
on until no label waits, so that it discovers all labels to which any character leads
(`Built.closed_labels`).
-/

namespace PatternAutomata

namespace NumberedTable

variable {t : NumberedTable} {label : Label} {c : Char} {n k : ℕ}

/-! ### The number of labels -/

/-- A list of numbers of rows without repetitions. -/
structure IsLabel (t : NumberedTable) (label : Label) : Prop where
  nodup : label.Nodup
  bounds : ∀ n : ℕ, n ∈ label → 1 ≤ n ∧ n ≤ t.size

/-- A label is no longer than the table. -/
lemma IsLabel.length_le (h : t.IsLabel label) : label.length ≤ t.size := by
  have sub : label ⊆ List.range' 1 t.size := by
    intro n hn
    obtain ⟨positive, small⟩ := h.bounds n hn
    exact List.mem_range'_1.2 ⟨positive, by omega⟩
  simpa using (List.subperm_of_subset h.nodup sub).length_le

/-- A label written with as many digits as the table has rows. -/
def digits (t : NumberedTable) (label : Label) : Fin t.size → Fin (t.size + 1) :=
  fun i => Fin.ofNat _ (label[i.val]?.getD 0)

/-- The digits of a label are its numbers, followed by zeros. -/
lemma IsLabel.digits_val (h : t.IsLabel label) (i : Fin t.size) :
    (t.digits label i).val = label[i.val]?.getD 0 := by
  have small : label[i.val]?.getD 0 < t.size + 1 := by
    cases hi : label[i.val]? with
    | none => simp
    | some n => exact Nat.lt_succ_of_le (h.bounds n (List.mem_of_getElem? hi)).2
  exact Nat.mod_eq_of_lt small

/-- Labels with the same digits are the same. -/
lemma IsLabel.digits_inj {label' : Label} (h : t.IsLabel label) (h' : t.IsLabel label')
    (same : t.digits label = t.digits label') : label = label' := by
  apply List.ext_getElem?
  intro i
  by_cases hi : i < t.size
  · have digit := congrArg Fin.val (congrFun same ⟨i, hi⟩)
    rw [h.digits_val, h'.digits_val] at digit
    -- Numbers are positive, so a zero marks the end of a label.
    have positive : ∀ {l : Label}, t.IsLabel l → ∀ n : ℕ, l[i]? = some n → n ≠ 0 := by
      intro l hl n hn
      have := hl.bounds n (List.mem_of_getElem? hn)
      omega
    cases hx : label[i]? with
    | none =>
      cases hy : label'[i]? with
      | none => rfl
      | some m => exact absurd (by simpa [hx, hy] using digit.symm) (positive h' m hy)
    | some n =>
      cases hy : label'[i]? with
      | none => exact absurd (by simpa [hx, hy] using digit) (positive h n hx)
      | some m => simpa [hx, hy] using digit
  · have := h.length_le
    have := h'.length_le
    rw [List.getElem?_eq_none (by omega), List.getElem?_eq_none (by omega)]

/-- There are no more labels than the bound says. -/
lemma length_le_labelBound {l : List Label} (nodup : l.Nodup) (h : ∀ label ∈ l, t.IsLabel label) :
    l.length ≤ t.labelBound := by
  have digits_nodup : (l.map t.digits).Nodup :=
    nodup.map_on fun x hx y hy same => (h x hx).digits_inj (h y hy) same
  simpa [labelBound] using digits_nodup.length_le_card

/-! ### Destinations -/

/-- A character leads to the closures of the targets of the label. -/
lemma mem_destination_iff :
    k ∈ t.destination label c ↔ ∃ n ∈ label, ∃ m ∈ t.targets c n, k ∈ t.closure m := by
  simp only [destination, mem_distinct, List.mem_flatMap]
  constructor
  · rintro ⟨m, ⟨n, hn, hm⟩, hk⟩
    exact ⟨n, hn, m, hm, hk⟩
  · rintro ⟨n, hn, m, hm, hk⟩
    exact ⟨m, ⟨n, hn, hm⟩, hk⟩

/-- Nothing leads from the empty label anywhere. -/
@[simp] lemma destination_nil (t : NumberedTable) (c : Char) : t.destination [] c = [] := rfl

/-- The moves of a label are the characters of the alphabet that lead anywhere. -/
lemma mem_moves_iff {target : Label} :
    (c, target) ∈ t.moves label ↔
      c ∈ t.alphabet ∧ target = t.destination label c ∧ target ≠ [] := by
  simp only [moves, List.mem_filter, List.mem_map, Prod.mk.injEq, Bool.not_eq_true',
    List.isEmpty_eq_false_iff]
  constructor
  · rintro ⟨⟨d, hd, rfl, rfl⟩, nonempty⟩
    exact ⟨hd, rfl, nonempty⟩
  · rintro ⟨hc, rfl, nonempty⟩
    exact ⟨⟨c, hc, rfl, rfl⟩, nonempty⟩

/-- The successors of a label are the nonempty labels that characters of the alphabet lead to. -/
lemma mem_successors_iff {target : Label} :
    target ∈ t.successors label ↔
      ∃ c ∈ t.alphabet, target = t.destination label c ∧ target ≠ [] := by
  simp only [successors, List.mem_reverse, List.mem_map, Prod.exists,
    exists_eq_right, mem_moves_iff]

/-- The label to which a word leads from the closure of the first row. -/
def labelAfter (t : NumberedTable) (word : List Char) : Label :=
  word.foldl t.destination (t.closure 1)

/-- A further character leads to a further destination. -/
lemma labelAfter_append_singleton (t : NumberedTable) (word : List Char) (c : Char) :
    t.labelAfter (word ++ [c]) = t.destination (t.labelAfter word) c := by
  simp [labelAfter]

/-- No label is discovered twice. -/
lemma nodup_labels (t : NumberedTable) : t.labels.Nodup := nodup_preorder _ _ _

end NumberedTable

namespace Automaton

variable {nfa : Automaton} {label : Label} {id : StateId} {c : Char} {word : List Char}

/-! ### The states of a label -/

/-- A label stands for a state when it holds the number of that state. -/
def Stands (nfa : Automaton) (label : Label) (id : StateId) : Prop :=
  ∃ n ∈ label, nfa.number? id = some n

/-- A label accepts when it stands for an accepting state. -/
lemma labelAccepts_iff :
    nfa.table.labelAccepts label = true ↔
      ∃ id, nfa.Stands label id ∧ (nfa.arena.state id).accepting = true := by
  simp only [NumberedTable.labelAccepts, List.any_eq_true, List.contains_iff_mem,
    mem_accepting_iff]
  constructor
  · rintro ⟨n, hn, id, number, accepting⟩
    exact ⟨id, ⟨n, hn, number⟩, accepting⟩
  · rintro ⟨id, ⟨n, hn, number⟩, accepting⟩
    exact ⟨n, hn, id, number, accepting⟩

namespace Built

/-- The closure of a row is a label. -/
lemma isLabel_closure {n : ℕ} (h : nfa.number? id = some n) :
    nfa.table.IsLabel (nfa.table.closure n) := by
  rw [closure_of_number h]
  refine ⟨nodup_filterMap_number? (nodup_preorder _ _ _), fun k hk => ?_⟩
  obtain ⟨t, -, ht⟩ := List.mem_filterMap.1 hk
  exact number?_bounds ht

/-- Every destination is a label. -/
lemma isLabel_destination (label : Label) (c : Char) :
    nfa.table.IsLabel (nfa.table.destination label c) := by
  refine ⟨nodup_distinct _, fun k hk => ?_⟩
  obtain ⟨n, -, m, -, hk⟩ := NumberedTable.mem_destination_iff.1 hk
  obtain ⟨id, hid⟩ := exists_number_of_mem_closure hk
  exact (isLabel_closure hid).bounds k hk

/-- The walk through the labels discovers all labels that characters lead to. -/
lemma closed_labels (nfa : Automaton) :
    Closed nfa.table.successors [nfa.table.closure 1] nfa.table.labels := by
  refine closed_preorder_of_bound (S := {label | nfa.table.IsLabel label}) ?_ ?_ ?_
  · intro label h
    obtain rfl := List.mem_singleton.1 h
    exact isLabel_closure nfa.number?_entry
  · intro label _ target h
    obtain ⟨c, -, rfl, -⟩ := NumberedTable.mem_successors_iff.1 h
    exact isLabel_destination label c
  · exact fun l nodup h => NumberedTable.length_le_labelBound nodup h

/-- Only the characters of the alphabet lead anywhere. -/
lemma mem_alphabet_of_destination (h : nfa.table.destination label c ≠ []) :
    c ∈ nfa.table.alphabet := by
  obtain ⟨k, hk⟩ := List.exists_mem_of_ne_nil _ h
  obtain ⟨n, -, m, hm, -⟩ := NumberedTable.mem_destination_iff.1 hk
  obtain ⟨id, number⟩ := exists_number_of_mem_targets hm
  obtain ⟨t, ht, -⟩ := (mem_targets_iff number).1 hm
  exact mem_alphabet number ht

/-- A character leads from the states of a label to those that are reached from them with that
character, and without consuming anything after it. -/
lemma stands_destination_iff (built : nfa.Built) :
    nfa.Stands (nfa.table.destination label c) id ↔
      ∃ p, nfa.Stands label p ∧
        ∃ q ∈ (nfa.arena.state p).targets (.char c), nfa.arena.Path q [] id := by
  constructor
  · rintro ⟨k, hk, number⟩
    obtain ⟨n, hn, m, hm, hk⟩ := NumberedTable.mem_destination_iff.1 hk
    obtain ⟨p, hp⟩ := exists_number_of_mem_targets hm
    obtain ⟨q, hq, hqm⟩ := (mem_targets_iff hp).1 hm
    obtain ⟨r, path, hr⟩ := (built.mem_closure_number_iff hqm).1 hk
    obtain rfl := number?_inj hr number
    exact ⟨p, ⟨n, hn, hp⟩, q, hq, path⟩
  · rintro ⟨p, ⟨n, hn, hp⟩, q, hq, path⟩
    have reach := (built.reach_of_number hp).tail (State.mem_successors_of_mem_targets hq)
    obtain ⟨m, hm⟩ := built.exists_number_iff.2 reach
    obtain ⟨k, hk⟩ := built.exists_number_iff.2 (reach.trans path.reach)
    refine ⟨k, NumberedTable.mem_destination_iff.2 ⟨n, hn, m, ?_, ?_⟩, hk⟩
    · exact (mem_targets_iff hp).2 ⟨q, hq, hm⟩
    · exact (built.mem_closure_number_iff hm).2 ⟨id, path, hk⟩

/-- The label after a word stands for the states that are reached with that word. -/
theorem stands_labelAfter_iff (built : nfa.Built) (word : List Char) (id : StateId) :
    nfa.Stands (nfa.table.labelAfter word) id ↔ nfa.arena.Path nfa.entry word id := by
  induction word using List.reverseRecOn generalizing id with
  | nil =>
    constructor
    · rintro ⟨k, hk, number⟩
      obtain ⟨t, path, ht⟩ := (built.mem_closure_number_iff nfa.number?_entry).1 hk
      obtain rfl := number?_inj ht number
      exact path
    · intro path
      obtain ⟨k, hk⟩ := built.exists_number_iff.2 path.reach
      exact ⟨k, (built.mem_closure_number_iff nfa.number?_entry).2 ⟨id, path, hk⟩, hk⟩
  | append_singleton word c ih =>
    rw [NumberedTable.labelAfter_append_singleton, built.stands_destination_iff,
      Arena.path_append_iff]
    constructor
    · rintro ⟨p, stands, q, hq, path⟩
      exact ⟨p, (ih p).1 stands, .char hq path⟩
    · rintro ⟨s, toS, rest⟩
      obtain ⟨p, q, toP, hq, path⟩ := Arena.path_singleton_iff.1 rest
      have := toS.append toP
      rw [List.append_nil] at this
      exact ⟨p, (ih p).2 this, q, hq, path⟩

/-- A label after a word is discovered, unless it is empty. -/
lemma labelAfter_mem_labels (h : nfa.table.labelAfter word ≠ []) :
    nfa.table.labelAfter word ∈ nfa.table.labels := by
  induction word using List.reverseRecOn with
  | nil => exact (closed_labels nfa).roots _ (List.mem_singleton_self _)
  | append_singleton word c ih =>
    rw [NumberedTable.labelAfter_append_singleton] at h ⊢
    have before : nfa.table.labelAfter word ≠ [] := by
      intro empty
      exact h (by rw [empty, NumberedTable.destination_nil])
    refine (closed_labels nfa).next _ (ih before) _ (NumberedTable.mem_successors_iff.2 ?_)
    exact ⟨c, mem_alphabet_of_destination h, rfl, h⟩

end Built

end Automaton

end PatternAutomata
