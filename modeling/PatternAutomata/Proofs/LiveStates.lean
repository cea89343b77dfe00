import PatternAutomata.Proofs.Compiled
import PatternAutomata.Proofs.Simulation

/-!
# Compiled automata have no dead states

Every state that an expression compiles to lies on a way to the exit. In the deterministic automaton
of the expression an accepting state can therefore be reached from every row, and a missing target
says that no text with the characters read so far is accepted: a word is followed to its end exactly
when it can be continued to an accepted text (`Automaton.ofExpr_isSome_follow?_iff`).
-/

namespace PatternAutomata

/-- A text is accepted when its characters lead from the start to an accepting state. -/
lemma Dfa.accepts_ofList_iff (d : Dfa) (word : List Char) :
    d.accepts (String.ofList word) = true ↔
      ∃ n, d.table.follow? Dfa.start word = some n ∧ d.accepting.contains n = true := by
  rw [Dfa.accepts, String.toList_ofList]
  cases d.table.follow? Dfa.start word <;> simp

namespace Automaton

variable {e : Expr} {nfa : Automaton} {label : Label} {word : List Char} {n : ℕ} {s : StateId}

/-! ### Labels and rows that are reached -/

/-- The label after a word is not empty exactly when the word leads to some state. -/
lemma Built.labelAfter_ne_nil_iff (built : nfa.Built) :
    nfa.table.labelAfter word ≠ [] ↔ ∃ id, nfa.arena.Path nfa.entry word id := by
  constructor
  · intro nonempty
    obtain ⟨k, hk⟩ := List.exists_mem_of_ne_nil _ nonempty
    obtain ⟨id, path, -⟩ := (built.mem_labelAfter_iff word k).1 hk
    exact ⟨id, path⟩
  · rintro ⟨id, path⟩
    obtain ⟨k, hk, -⟩ := (built.stands_labelAfter_iff word id).2 path
    exact List.ne_nil_of_mem hk

/-- Each label that is discovered is the label after some word, and it is not empty. -/
lemma Built.exists_word_of_mem_labels (built : nfa.Built) (h : label ∈ nfa.table.labels) :
    ∃ word, nfa.table.labelAfter word = label ∧ label ≠ [] := by
  obtain ⟨root, mem, reaches⟩ := reaches_of_mem_preorder h
  obtain rfl := List.mem_singleton.1 mem
  refine reaches.mem_of_closed (S := {label | ∃ word, nfa.table.labelAfter word = label ∧
    label ≠ []}) ?_ ⟨[], rfl, built.labelAfter_ne_nil_iff.2 ⟨nfa.entry, .refl _⟩⟩
  rintro _ ⟨word, rfl, -⟩ target edge
  obtain ⟨c, -, rfl, nonempty⟩ := NumberedTable.mem_successors_iff.1 edge
  exact ⟨word ++ [c], NumberedTable.labelAfter_append_singleton _ _ _, nonempty⟩

/-- The rows of the deterministic table are those of the labels. -/
lemma mem_determinize_table_iff :
    n ∈ nfa.determinize.table ↔ ∃ label, nfa.table.labelNumber? label = some n := by
  change n ∈ nfa.table.subsets.table ↔ _
  rw [← Std.TreeMap.isSome_getElem?_iff_mem, Option.isSome_iff_exists]
  simp only [NumberedTable.getElem?_table_subsets_eq_some_iff]
  exact ⟨fun ⟨_, label, number, _⟩ => ⟨label, number⟩,
    fun ⟨label, number⟩ => ⟨_, label, number, rfl⟩⟩

/-- Each row of the deterministic table is reached from the start with some word. -/
lemma Built.exists_word_of_mem_table (built : nfa.Built) (h : n ∈ nfa.determinize.table) :
    ∃ word, nfa.determinize.table.follow? Dfa.start word = some n := by
  obtain ⟨label, number⟩ := mem_determinize_table_iff.1 h
  have discovered := NumberedTable.exists_labelNumber_iff.1 ⟨n, number⟩
  obtain ⟨word, rfl, nonempty⟩ := built.exists_word_of_mem_labels discovered
  exact ⟨word, (follow?_eq_some_iff built word n).2 ⟨nonempty, number⟩⟩

/-! ### Ways to the exit -/

/-- Every state that can be reached in the automaton of an expression leads to its exit, which
accepts. -/
lemma exists_path_to_exit (h : ofExpr e = .ok nfa) (reach : nfa.arena.Reach nfa.entry s) :
    (nfa.arena.state nfa.exit).accepting = true ∧ ∃ word, nfa.arena.Path s word nfa.exit := by
  obtain ⟨T, own⟩ := exists_occupies_of_ofExpr h
  have inside : s ∈ T := reach.mem_of_closed own.closed own.entry_mem
  have distinct : nfa.arena.LabelsDistinct :=
    e.compile_keeps Arena.invariant_labelsDistinct (run_compile_of_ofExpr h).1
      Arena.invariant_labelsDistinct.empty
  refine ⟨(own.accepting_iff _ own.exit_mem).2 rfl, ?_⟩
  exact distinct.exists_path_of_reach (own.leads s inside)

/-- In the deterministic automaton of an expression a word is followed to its end exactly when some
text that begins with it is accepted, and from every row of the table some accepting state can be
reached. -/
theorem ofExpr_isSome_follow?_iff (h : ofExpr e = .ok nfa) :
    (∀ word, (nfa.determinize.table.follow? Dfa.start word).isSome = true ↔
      ∃ rest, nfa.determinize.accepts (String.ofList (word ++ rest)) = true) ∧
    ∀ n ∈ nfa.determinize.table, ∃ rest m, nfa.determinize.table.follow? n rest = some m ∧
      nfa.determinize.accepting.contains m = true := by
  have built := Built.of_build (run_compile_of_ofExpr h).2
  have continued : ∀ word, (nfa.determinize.table.follow? Dfa.start word).isSome = true ↔
      ∃ rest, nfa.determinize.accepts (String.ofList (word ++ rest)) = true := by
    intro word
    constructor
    · intro followed
      obtain ⟨n, some⟩ := Option.isSome_iff_exists.1 followed
      obtain ⟨nonempty, -⟩ := (follow?_eq_some_iff built word n).1 some
      obtain ⟨id, path⟩ := built.labelAfter_ne_nil_iff.1 nonempty
      obtain ⟨accepting, rest, toExit⟩ := exists_path_to_exit h path.reach
      refine ⟨rest, (built.accepts_determinize_iff _).2 ⟨nfa.exit, ?_, accepting⟩⟩
      rw [String.toList_ofList]
      exact path.append toExit
    · rintro ⟨rest, accepted⟩
      obtain ⟨m, whole, -⟩ := (Dfa.accepts_ofList_iff _ _).1 accepted
      rw [DfaTable.follow?_append, Option.bind_eq_some_iff] at whole
      obtain ⟨n, first, -⟩ := whole
      rw [first, Option.isSome_some]
  -- a row is reached with some word, and the way on begins where that word ends
  refine ⟨continued, fun n row => ?_⟩
  obtain ⟨word, reached⟩ := built.exists_word_of_mem_table row
  obtain ⟨rest, accepted⟩ := (continued word).1 (by rw [reached, Option.isSome_some])
  obtain ⟨m, whole, accepting⟩ := (Dfa.accepts_ofList_iff _ _).1 accepted
  rw [DfaTable.follow?_append, reached, Option.bind_some] at whole
  exact ⟨rest, m, whole, accepting⟩

/-- A choice under a repetition, as in `(?:ab|a)*b?`. -/
def choiceUnderRepetition : Expr :=
  .sequence
    [.repetition ⟨.zeroOrMore, true⟩ (.group false
      (.choice (.sequence [.char .simple 'a', .char .simple 'b']) (.char .simple 'a'))),
     .repetition ⟨.zeroOrOne, true⟩ (.char .simple 'b')]

theorem ofExpr_isSome_follow?_iff_choiceUnderRepetition :
    ∃ nfa, ofExpr choiceUnderRepetition = .ok nfa ∧
      (∀ word, (nfa.determinize.table.follow? Dfa.start word).isSome = true ↔
        ∃ rest, nfa.determinize.accepts (String.ofList (word ++ rest)) = true) ∧
      ∀ n ∈ nfa.determinize.table, ∃ rest m, nfa.determinize.table.follow? n rest = some m ∧
        nfa.determinize.accepting.contains m = true := by
  have supported : choiceUnderRepetition.isSupported = true := by decide
  obtain ⟨nfa, made, -⟩ := construct_of_yields (Expr.compile_yields _ supported .empty)
  exact ⟨nfa, made, ofExpr_isSome_follow?_iff made⟩

end Automaton

end PatternAutomata
