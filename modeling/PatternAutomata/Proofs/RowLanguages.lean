import PatternAutomata.Proofs.LiveStates

/-!
# The languages of rows

Two labels may list the same states in different orders, and are then different states of the
deterministic automaton, with rows of their own that lead to labels in different orders again. This
does no harm: what is accepted from a row are the words that lead from the states of its label to an
accepting state, in whatever order the label lists them (`Automaton.acceptsFrom_determinize`).

Each row is reached from the start with some word, and its label stands for the states that are
reached with this word. Hence a text is accepted from the row exactly when the word and the text
together are accepted from the start.
-/

namespace PatternAutomata

/-- Whether an automaton accepts the whole of a text when it starts in the state with a number. -/
def Dfa.acceptsFrom (d : Dfa) (n : StateNumber) (text : String) : Bool :=
  match d.table.follow? n text.toList with
  | none => false
  | some m => d.accepting.contains m

/-- A text is accepted from the start when it is accepted. -/
lemma Dfa.acceptsFrom_start (d : Dfa) : d.acceptsFrom Dfa.start = d.accepts := rfl

/-- A text is accepted from a state that a word leads to when the word with the text behind it is
accepted. -/
lemma Dfa.acceptsFrom_of_follow? {d : Dfa} {word : List Char} {n : ℕ}
    (h : d.table.follow? Dfa.start word = some n) (text : String) :
    d.acceptsFrom n text = d.accepts (String.ofList word ++ text) := by
  rw [← d.acceptsFrom_start, acceptsFrom, acceptsFrom, String.toList_append, String.toList_ofList,
    DfaTable.follow?_append, h]
  rfl

namespace Automaton

variable {nfa : Automaton} {label label' : Label} {word : List Char} {text : String} {n : ℕ}

/-- A text is accepted from a label when some path spells it from a state of the label to an
accepting state. -/
def AcceptsFrom (nfa : Automaton) (label : Label) (text : String) : Prop :=
  ∃ k ∈ label, ∃ id, nfa.number? id = some k ∧
    ∃ t, nfa.arena.Path id text.toList t ∧ (nfa.arena.state t).accepting = true

/-- What is accepted from a label is accepted from every label that lists no fewer numbers. -/
lemma AcceptsFrom.mono (sub : ∀ k ∈ label, k ∈ label') (h : nfa.AcceptsFrom label text) :
    nfa.AcceptsFrom label' text := by
  obtain ⟨k, mem, rest⟩ := h
  exact ⟨k, sub k mem, rest⟩

/-- A text is accepted from the label after a word when the word with the text behind it is
accepted. -/
lemma Built.acceptsFrom_labelAfter_iff (built : nfa.Built) :
    nfa.AcceptsFrom (nfa.table.labelAfter word) text ↔
      nfa.determinize.accepts (String.ofList word ++ text) = true := by
  rw [built.accepts_determinize_iff, String.toList_append, String.toList_ofList]
  constructor
  · rintro ⟨k, mem, id, number, t, path, accepting⟩
    have before := (built.stands_labelAfter_iff word id).1 ⟨k, mem, number⟩
    exact ⟨t, before.append path, accepting⟩
  · rintro ⟨t, whole, accepting⟩
    obtain ⟨id, before, path⟩ := Arena.path_append_iff.1 whole
    obtain ⟨k, mem, number⟩ := (built.stands_labelAfter_iff word id).2 before
    exact ⟨k, mem, id, number, t, path, accepting⟩

/-- Each row stands for the label after a word that leads to it. -/
lemma Built.exists_word_of_row (built : nfa.Built) (h : n ∈ nfa.determinize.table) :
    ∃ word, nfa.determinize.table.follow? Dfa.start word = some n ∧
      nfa.determinize.label? n = some (nfa.table.labelAfter word) := by
  obtain ⟨word, followed⟩ := built.exists_word_of_mem_table h
  obtain ⟨-, number⟩ := (follow?_eq_some_iff built word n).1 followed
  exact ⟨word, followed, label?_determinize_iff.2 number⟩

/-- A state with a label has a row in the deterministic table. -/
lemma mem_table_of_label? (h : nfa.determinize.label? n = some label) :
    n ∈ nfa.determinize.table :=
  mem_determinize_table_iff.2 ⟨label, label?_determinize_iff.1 h⟩

/-- What is accepted from a row is what is accepted from its label. -/
lemma Built.acceptsFrom_iff (built : nfa.Built) (h : nfa.determinize.label? n = some label)
    (text : String) :
    nfa.determinize.acceptsFrom n text = true ↔ nfa.AcceptsFrom label text := by
  obtain ⟨word, followed, same⟩ := built.exists_word_of_row (mem_table_of_label? h)
  obtain rfl : label = nfa.table.labelAfter word := Option.some_inj.1 (h.symm.trans same)
  rw [built.acceptsFrom_labelAfter_iff, Dfa.acceptsFrom_of_follow? followed]

/-- Every row of the deterministic automaton of an automaton that is built has a label, and from the
row exactly those texts are accepted that some path spells from a state of the label to an accepting
state. The order of a label does not matter: from rows whose labels list the same numbers the same
texts are accepted. -/
theorem acceptsFrom_determinize {f : Fragment} {a : Arena} (h : build f a = .ok nfa) :
    (∀ n ∈ nfa.determinize.table, ∃ label, nfa.determinize.label? n = some label ∧
      ∀ text, nfa.determinize.acceptsFrom n text = true ↔ nfa.AcceptsFrom label text) ∧
    ∀ n m label label', nfa.determinize.label? n = some label →
      nfa.determinize.label? m = some label' → (∀ k, k ∈ label ↔ k ∈ label') →
        ∀ text, nfa.determinize.acceptsFrom n text = nfa.determinize.acceptsFrom m text := by
  have built := Built.of_build h
  refine ⟨fun n row => ?_, fun n m label label' hn hm same text => ?_⟩
  · obtain ⟨word, -, labelled⟩ := built.exists_word_of_row row
    exact ⟨_, labelled, built.acceptsFrom_iff labelled⟩
  · rw [Bool.eq_iff_iff, built.acceptsFrom_iff hn, built.acceptsFrom_iff hm]
    exact ⟨.mono fun k => (same k).1, .mono fun k => (same k).2⟩

theorem acceptsFrom_determinize_tangled :
    ∃ nfa, build ⟨0, 3⟩ tangledArena = .ok nfa ∧
      (1 ∈ nfa.determinize.table ∧ ∃ label, nfa.determinize.label? 1 = some label ∧
        ∀ text, nfa.determinize.acceptsFrom 1 text = true ↔ nfa.AcceptsFrom label text) ∧
      nfa.determinize.label? 1 = some [1, 2, 3] ∧ nfa.determinize.label? 3 = some [2, 1, 3] ∧
      ∀ text, nfa.determinize.acceptsFrom 1 text = nfa.determinize.acceptsFrom 3 text := by
  have h : build ⟨0, 3⟩ tangledArena = .ok ⟨tangledArena, 0, 3⟩ := by decide +kernel
  obtain ⟨rows, orders⟩ := acceptsFrom_determinize h
  have first : (⟨tangledArena, 0, 3⟩ : Automaton).determinize.label? 1 = some [1, 2, 3] := by
    decide +kernel
  have third : (⟨tangledArena, 0, 3⟩ : Automaton).determinize.label? 3 = some [2, 1, 3] := by
    decide +kernel
  have row := mem_table_of_label? first
  exact ⟨_, h, ⟨row, rows 1 row⟩, first, third,
    orders 1 3 _ _ first third (by simp [or_left_comm])⟩

end Automaton

end PatternAutomata
