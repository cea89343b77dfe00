import PatternAutomata.Proofs.LiveStates

/-!
# Automata that are made anew of their parts

A deterministic automaton can be made anew of its table and its accepting states. What it accepts
depends on nothing else, but its alphabet is then that of the table, which leaves out characters
that lead nowhere. When the automaton comes from determinization there are none: a character of the
alphabet stands before some targets of a state that can be reached, hence of a state that the label
after some word stands for, and from that label the character leads somewhere
(`Built.mem_alphabet_determinize_iff`). This rests on constructions that never put a character
before no targets at all (`Arena.EdgesLead`).
-/

namespace PatternAutomata

/-! ### Edges that lead somewhere -/

/-- A label that is added stands before its new target. -/
lemma State.ne_nil_of_mem_addTarget {edges : List (Symbol × List StateId)} (symbol : Symbol)
    (t : StateId) (lead : ∀ edge ∈ edges, edge.2 ≠ []) :
    ∀ edge ∈ addTarget symbol t edges, edge.2 ≠ [] := by
  induction edges with
  | nil => simp [addTarget]
  | cons edge edges ih =>
    rw [List.forall_mem_cons] at lead
    obtain ⟨label, targets⟩ := edge
    rw [addTarget]
    split
    · refine List.forall_mem_cons.2 ⟨?_, lead.2⟩
      by_cases known : t ∈ targets
      · simpa [known] using lead.1
      · simp [known]
    · exact List.forall_mem_cons.2 ⟨lead.1, ih lead.2⟩

namespace Arena

/-- Every label of a state stands before some targets. -/
def EdgesLead (a : Arena) : Prop := ∀ id, ∀ edge ∈ (a.state id).edges, edge.2 ≠ []

/-- Edits never put a label before no targets. -/
lemma invariant_edgesLead : Invariant EdgesLead :=
  invariant_of_edges (Q := fun edges => ∀ edge ∈ edges, edge.2 ≠ []) (fun _ mem => nomatch mem)
    State.ne_nil_of_mem_addTarget

end Arena

/-! ### Alphabets -/

/-- The alphabet of an automaton that is made of its parts holds the characters that the table has
targets for. -/
lemma Dfa.mem_alphabet_ofParts_iff {table : DfaTable} {accepting : Std.TreeSet StateNumber}
    {c : Char} : c ∈ (ofParts table accepting).alphabet ↔ ∃ n m, table.target? n c = some m := by
  simp only [ofParts, Std.TreeSet.mem_toList, Std.TreeSet.mem_ofList, List.contains_iff_mem,
    List.mem_flatMap, List.mem_map, Prod.exists, DfaTable.target?_eq_some_iff_mem_rows]
  constructor
  · rintro ⟨n, row, listed, _, m, entry, rfl⟩
    exact ⟨n, m, row, listed, entry⟩
  · rintro ⟨n, m, row, listed, entry⟩
    exact ⟨n, row, listed, c, m, entry, rfl⟩

namespace Automaton

variable {nfa : Automaton} {c : Char}

/-- A character is in the alphabet when it stands before targets of a state that can be reached. -/
lemma mem_alphabet_iff : c ∈ nfa.alphabet ↔
    ∃ id ∈ nfa.order, ∃ targets, (Symbol.char c, targets) ∈ (nfa.arena.state id).edges := by
  rw [alphabet, mem_distinct, List.mem_flatMap]
  refine exists_congr fun id => and_congr_right fun _ => ?_
  simp only [State.charEdges, List.mem_map, List.mem_filterMap]
  constructor
  · rintro ⟨⟨d, targets⟩, ⟨⟨symbol, _⟩, mem, same⟩, rfl⟩
    cases symbol with
    | epsilon => cases same
    | char e =>
      cases same
      exact ⟨_, mem⟩
  · rintro ⟨targets, mem⟩
    exact ⟨(c, targets), ⟨_, mem, rfl⟩, rfl⟩

/-- The alphabet holds exactly the characters that the deterministic table has targets for. -/
lemma Built.mem_alphabet_determinize_iff (built : nfa.Built) (distinct : nfa.arena.LabelsDistinct)
    (lead : nfa.arena.EdgesLead) :
    c ∈ nfa.determinize.alphabet ↔ ∃ n m, nfa.determinize.table.target? n c = some m := by
  constructor
  · intro used
    obtain ⟨id, discovered, targets, edge⟩ := mem_alphabet_iff.1 used
    obtain ⟨t, ht⟩ := List.exists_mem_of_ne_nil _ (lead id _ edge)
    -- the state is reached with some word, and its target with one character more
    obtain ⟨word, path⟩ := distinct.exists_path_of_reach (built.mem_order_iff.1 discovered)
    have onward : nfa.arena.Path nfa.entry (word ++ [c]) t :=
      path.append (.char ((distinct id).mem_targets edge ht) (.refl t))
    have nonempty := built.labelAfter_ne_nil_iff.2 ⟨id, path⟩
    have nonempty' := built.labelAfter_ne_nil_iff.2 ⟨t, onward⟩
    obtain ⟨n, number⟩ := NumberedTable.exists_labelNumber_iff.2 (labelAfter_mem_labels nonempty)
    obtain ⟨m, number'⟩ := NumberedTable.exists_labelNumber_iff.2 (labelAfter_mem_labels nonempty')
    rw [NumberedTable.labelAfter_append_singleton] at nonempty' number'
    exact ⟨n, m, target?_eq_some_iff.2 ⟨_, number, nonempty', number'⟩⟩
  · rintro ⟨n, m, target⟩
    obtain ⟨label, -, nonempty, -⟩ := target?_eq_some_iff.1 target
    exact mem_alphabet_of_destination nonempty

end Automaton

/-! ### What is lost -/

/-- Nothing is lost when one automaton takes the place of another. -/
structure Dfa.Replaces (r d : Dfa) : Prop where
  accepts : ∀ text, r.accepts text = d.accepts text
  table : r.table = d.table
  accepting : r.accepting = d.accepting
  /-- The same characters are listed, each of them once, in one order or another. -/
  alphabet : r.alphabet.Perm d.alphabet

namespace Dfa

/-- The alphabet of an automaton that is made of its parts lists no character twice. -/
lemma nodup_alphabet_ofParts (table : DfaTable) (accepting : Std.TreeSet StateNumber) :
    (ofParts table accepting).alphabet.Nodup := by
  refine Std.TreeSet.distinct_toList.imp ?_
  intro c d different same
  exact different (Std.LawfulEqCmp.compare_eq_iff_eq.2 same)

/-- An automaton is replaced by one that is made of its parts when its alphabet is that of its
table. -/
lemma ofParts_replaces {d : Dfa} (nodup : d.alphabet.Nodup)
    (used : ∀ c, c ∈ d.alphabet ↔ ∃ n m, d.table.target? n c = some m) :
    (ofParts d.table d.accepting).Replaces d where
  accepts _ := rfl
  table := rfl
  accepting := rfl
  alphabet := by
    refine (List.perm_ext_iff_of_nodup (nodup_alphabet_ofParts _ _) nodup).2 fun c => ?_
    rw [mem_alphabet_ofParts_iff, used]

end Dfa

namespace Automaton

variable {nfa : Automaton}

/-- A deterministic automaton is replaced by one that is made of its parts. -/
lemma Built.ofParts_replaces (built : nfa.Built) (distinct : nfa.arena.LabelsDistinct)
    (lead : nfa.arena.EdgesLead) :
    (Dfa.ofParts nfa.determinize.table nfa.determinize.accepting).Replaces nfa.determinize :=
  Dfa.ofParts_replaces nfa.nodup_alphabet fun _ =>
    built.mem_alphabet_determinize_iff distinct lead

/-- The deterministic automaton of whatever a script or an expression makes is replaced by one that
is made of its table and its accepting states. -/
theorem ofParts_determinize_replaces :
    (∀ (s : Script) (made : Array Fragment) (a : Arena),
      (Script.run #[] s).run .empty = .ok (made, a) → ∀ f nfa, build f a = .ok nfa →
        (Dfa.ofParts nfa.determinize.table nfa.determinize.accepting).Replaces
          nfa.determinize) ∧
    ∀ e nfa, ofExpr e = .ok nfa →
      (Dfa.ofParts nfa.determinize.table nfa.determinize.accepting).Replaces nfa.determinize := by
  refine ⟨fun s made a run f nfa h => ?_, fun e nfa h => ?_⟩
  · have distinct := Arena.invariant_labelsDistinct.of_run run
    have lead := Arena.invariant_edgesLead.of_run run
    obtain ⟨rfl, -, -⟩ := build_eq_ok_iff.1 h
    exact (Built.of_build h).ofParts_replaces distinct lead
  · obtain ⟨run, made⟩ := run_compile_of_ofExpr h
    have distinct := e.compile_keeps Arena.invariant_labelsDistinct run
      Arena.invariant_labelsDistinct.empty
    have lead := e.compile_keeps Arena.invariant_edgesLead run Arena.invariant_edgesLead.empty
    exact (Built.of_build made).ofParts_replaces distinct lead

/-- The arena after a script that uses one fragment twice and another one not at all. -/
def doubledArena : Arena :=
  ⟨#[⟨[(.char 'b', [1])], false⟩, ⟨[(.epsilon, [0])], true⟩, ⟨[(.char 'a', [3])], false⟩,
    ⟨[], true⟩]⟩

theorem ofParts_determinize_replaces_doubled :
    (∃ made nfa, (Script.run #[] [.char 'b', .char 'a', .concat 0 0]).run .empty =
        .ok (made, doubledArena) ∧ build ⟨0, 1⟩ doubledArena = .ok nfa ∧
      (Dfa.ofParts nfa.determinize.table nfa.determinize.accepting).Replaces nfa.determinize) ∧
    ∃ nfa, ofExpr choiceUnderRepetition = .ok nfa ∧
      (Dfa.ofParts nfa.determinize.table nfa.determinize.accepting).Replaces
        nfa.determinize := by
  constructor
  · have run : (Script.run #[] [.char 'b', .char 'a', .concat 0 0]).run .empty =
        .ok (#[⟨0, 1⟩, ⟨2, 3⟩, ⟨0, 1⟩], doubledArena) := rfl
    have made : build ⟨0, 1⟩ doubledArena = .ok ⟨doubledArena, 0, 1⟩ := by decide +kernel
    exact ⟨_, _, run, made, ofParts_determinize_replaces.1 _ _ _ run _ _ made⟩
  · obtain ⟨nfa, made, -⟩ := construct_of_yields
      (choiceUnderRepetition.compile_yields (by decide) .empty)
    exact ⟨nfa, made, ofParts_determinize_replaces.2 _ nfa made⟩

end Automaton

end PatternAutomata
