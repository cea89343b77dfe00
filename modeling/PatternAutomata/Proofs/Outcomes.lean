import PatternAutomata.Proofs.Offences
import PatternAutomata.Proofs.Reading
import PatternAutomata.Proofs.Settings

/-!
# What becomes of patterns

A pattern that the reader refuses is malformed, unless it is refused for referring back or for
looking around. A pattern with a tree has an automaton when automata can be made of every node of
the tree, which is a matter of each node alone (`Tree.Readable.isPlain_iff`); otherwise it is
unsupported. Flags are reported before everything else, all of them together and in the order in
which they open, wherever they stand in the pattern (`Automaton.ofPattern_outcomes`).
-/

namespace PatternAutomata

/-! ### Nodes -/

namespace Tree

/-- Whether automata can be made of a node, whatever its parts are. -/
def isPlainNode : Tree → Bool
  | literal _ .verbatim _ => true
  | literal _ .escaped _ => true
  | literal _ .superfluous _ => true
  | repetition _ quantifier _ => quantifier.kind.isSupported
  | group _ kind _ => kind.isFlagless
  | alternation _ _ => true
  | concat _ _ => true
  | _ => false

variable {t : Tree} {ts : List Tree}

lemma isPlain_iff_of_isLeaf (leaf : t.isLeaf = true) :
    t.isPlain = true ↔ t.isPlainNode = true := by
  cases t with
  | literal span spelling value => cases spelling <;> simp [isPlain, isPlainNode, Spelling.charKind]
  | _ => first | rfl | cases leaf

/-- The nodes of two or more trees that are plain together. -/
lemma allPlain_iff_forall_nodes (several : 2 ≤ ts.length)
    (h : ∀ t ∈ ts, t.isPlain = true ↔ ∀ node ∈ t.nodes, node.isPlainNode = true) :
    (!ts.isEmpty && allPlain ts) = true ↔ ∀ node ∈ allNodes ts, node.isPlainNode = true := by
  have some : ts.isEmpty = false := by
    rw [List.isEmpty_eq_false_iff, ← List.length_pos_iff]
    omega
  rw [some, Bool.not_false, Bool.true_and, allPlain_iff, allNodes_eq]
  constructor
  · intro plain node mem
    obtain ⟨t, ht, mem⟩ := List.mem_flatMap.1 mem
    exact (h t ht).1 (plain t ht) node mem
  · intro plain t ht
    exact (h t ht).2 fun node mem => plain node (List.mem_flatMap.2 ⟨t, ht, mem⟩)

/-- A readable tree is plain when automata can be made of all its nodes. -/
theorem Readable.isPlain_iff (h : t.Readable) :
    t.isPlain = true ↔ ∀ node ∈ t.nodes, node.isPlainNode = true := by
  induction h with
  | leaf leaf => rw [nodes_of_isLeaf leaf, List.forall_mem_singleton, isPlain_iff_of_isLeaf leaf]
  | flags _ => simp [nodes, isPlain, isPlainNode]
  | repetition _ ih => rw [nodes, List.forall_mem_cons, ← ih, isPlain, Bool.and_eq_true, isPlainNode]
  | group _ ih => rw [nodes, List.forall_mem_cons, ← ih, isPlain, Bool.and_eq_true, isPlainNode]
  | alternation several _ ih =>
    rw [nodes, List.forall_mem_cons, ← allPlain_iff_forall_nodes several ih, isPlain]
    simp [isPlainNode]
  | concat several _ ih =>
    rw [nodes, List.forall_mem_cons, ← allPlain_iff_forall_nodes several ih, isPlain]
    simp [isPlainNode]

/-- A readable tree with settings has flags. -/
lemma Readable.isEmpty_flagText (h : t.Readable) (some : t.settings ≠ []) :
    t.flagText.isEmpty = false := by
  obtain ⟨s, others, settings⟩ := List.exists_cons_of_ne_nil some
  have first := h.isEmpty_of_mem_settings s (by simp [settings])
  have joined : t.flagText = s.text ++ String.join (others.map Setting.text) := by
    rw [← join_settings, settings, List.map_cons, String.join_cons]
  rw [← Bool.not_eq_true, String.isEmpty_iff] at first ⊢
  rw [joined, String.append_eq_empty_iff]
  exact fun empty => first empty.1

end Tree

/-! ### Errors -/

namespace Automaton

variable {pattern : String} {t : Tree}

/-- An expression has an automaton or is unsupported. -/
lemma ofExpr_outcomes (e : Expr) :
    (∃ nfa, ofExpr e = .ok nfa) ∨ ∃ construct, ofExpr e = .error (.unsupported construct) := by
  rcases offends : e.offences with _ | ⟨first, others⟩
  · exact .inl (exists_ofExpr offends)
  · exact .inr ⟨first, ofExpr_eq_error offends⟩

/-- A pattern with a plain tree has an automaton. -/
lemma exists_ofPattern_iff (h : Tree.ofPattern pattern = .ok t) :
    (∃ nfa, ofPattern pattern = .ok nfa) ↔ t.isPlain = true := by
  constructor
  · rintro ⟨nfa, made⟩
    obtain ⟨u, read, -, plain, -⟩ := exists_run_of_ofPattern made
    rw [h] at read
    cases read
    exact plain
  · intro plain
    obtain ⟨none, supported⟩ := t.supported_of_isPlain plain
    rw [ofPattern_of_tree h]
    refine exists_ofExpr ((Expr.offences_eq_nil_iff _).2 ?_)
    rw [Expr.isSupported, none, supported]
    rfl

/-- A pattern is malformed when the reader refuses it, but not for referring back or for looking
around. It has an automaton when it has a tree and automata can be made of every node of the tree,
and it is unsupported in all other cases. When any nodes of the tree set flags, these are what is
unsupported, all of them in the order in which they open in the pattern. -/
theorem ofPattern_outcomes (pattern : String) :
    ((∃ diagnostic, ofPattern pattern = .error (.malformed diagnostic)) ↔
      ∃ fault span, Tree.ofPattern pattern = .error (.fault fault span)) ∧
    ((∃ nfa, ofPattern pattern = .ok nfa) ↔
      ∃ t, Tree.ofPattern pattern = .ok t ∧ ∀ node ∈ t.nodes, node.isPlainNode = true) ∧
    ((∃ diagnostic, ofPattern pattern = .error (.malformed diagnostic)) ∨
      (∃ nfa, ofPattern pattern = .ok nfa) ∨
        ∃ construct, ofPattern pattern = .error (.unsupported construct)) ∧
    ∀ t, Tree.ofPattern pattern = .ok t → Setting.InOrder pattern.toList t.settings ∧
      (t.settings ≠ [] → ofPattern pattern =
        .error (.unsupported (.flags (String.join (t.settings.map Setting.text))))) := by
  cases read : Tree.ofPattern pattern with
  | error refusal =>
    have error := ofPattern_of_refusal read
    cases refusal <;> simp [error, Refusal.toError]
  | ok t =>
    have readable := Tree.readable_of_ofPattern read
    have outcomes := ofExpr_outcomes (.root t.flagText t.toExpr)
    rw [← ofPattern_of_tree read] at outcomes
    have made := exists_ofPattern_iff read
    rw [readable.isPlain_iff] at made
    refine ⟨?_, ?_, .inr outcomes, ?_⟩
    · rcases outcomes with ⟨nfa, ok⟩ | ⟨construct, unsupported⟩
      · simp [ok]
      · simp [unsupported]
    · rw [made]
      simp
    · intro u same
      cases same
      refine ⟨Tree.inOrder_of_ofPattern read, ?_⟩
      intro some
      rw [ofPattern_of_tree read, t.join_settings]
      have offences : (Expr.root t.flagText t.toExpr).offences =
          .flags t.flagText :: t.toExpr.offences := by
        rw [Expr.offences, readable.isEmpty_flagText some]
        rfl
      exact ofExpr_eq_error offences

/-- Flags for the rest of the pattern, and then flags for a group, next to other constructs for
which there are no automata. -/
def nestedFlags : String := ".(?i)a{2}(b|(?s-m:[c]))"

theorem ofPattern_outcomes_nestedFlags : ∃ t, Tree.ofPattern nestedFlags = .ok t ∧
    t.settings = [⟨⟨1, 1, 2⟩, "i"⟩, ⟨⟨12, 1, 13⟩, "s-m"⟩] ∧
      ofPattern nestedFlags = .error (.unsupported (.flags "is-m")) := by
  have evaluated : (Tree.ofPattern nestedFlags).toOption.map Tree.settings =
      some [⟨⟨1, 1, 2⟩, "i"⟩, ⟨⟨12, 1, 13⟩, "s-m"⟩] := by decide +kernel
  cases read : Tree.ofPattern nestedFlags with
  | error refusal =>
    rw [read] at evaluated
    cases evaluated
  | ok t =>
    rw [read] at evaluated
    have settings : t.settings = [⟨⟨1, 1, 2⟩, "i"⟩, ⟨⟨12, 1, 13⟩, "s-m"⟩] :=
      Option.some.inj evaluated
    have flags := ((ofPattern_outcomes nestedFlags).2.2.2 t read).2 (by simp [settings])
    rw [settings] at flags
    exact ⟨t, rfl, settings, flags⟩

end Automaton

end PatternAutomata
