import PatternAutomata.Proofs.Invariants
import PatternAutomata.Proofs.Offences

/-!
# Automata of expressions

Only supported expressions compile, so everything that is known of the fragments of supported
expressions is known of every automaton of an expression: its exit is the only state that accepts,
it leads from the entry to each state and from there to the exit, and the words it accepts are those
through the fragment (`Automaton.occupies_of_ofExpr`).
-/

namespace PatternAutomata

open Build Fragment

namespace Automaton

variable {e : Expr} {nfa : Automaton}

/-- The automaton of an expression consists of the fragment and the arena that the expression
compiles to. -/
lemma run_compile_of_ofExpr (h : ofExpr e = .ok nfa) :
    e.compile.run .empty = .ok (⟨nfa.entry, nfa.exit⟩, nfa.arena) ∧
      build ⟨nfa.entry, nfa.exit⟩ nfa.arena = .ok nfa := by
  unfold ofExpr construct at h
  cases run : e.compile.run .empty with
  | error error =>
    rw [run] at h
    cases h
  | ok made =>
    rw [run] at h
    change build made.1 made.2 = .ok nfa at h
    obtain ⟨rfl, -⟩ := build_eq_ok_iff.1 h
    exact ⟨rfl, h⟩

/-- An expression that has an automaton is supported. -/
lemma isSupported_of_ofExpr (h : ofExpr e = .ok nfa) : e.isSupported = true :=
  e.isSupported_of_run (run_compile_of_ofExpr h).1

/-- The fragment of the automaton of an expression owns all states of the automaton. -/
theorem occupies_of_ofExpr (h : ofExpr e = .ok nfa) :
    (⟨nfa.entry, nfa.exit⟩ : Fragment).Occupies nfa.arena {s | s < nfa.size} e.crossings := by
  obtain ⟨f, a, run, -, own⟩ := e.compile_yields (isSupported_of_ofExpr h) .empty
  rw [(run_compile_of_ofExpr h).1, Except.ok.injEq, Prod.mk.injEq] at run
  obtain ⟨rfl, rfl⟩ := run
  have all : ∅ ∪ Arena.empty.added nfa.arena = {s | s < nfa.size} := by
    rw [Set.empty_union]
    exact Set.ext fun s => and_iff_right (Nat.zero_le s)
  rwa [all] at own

/-- The fragment of the automaton of an expression owns states between its entry and its exit. -/
theorem exists_occupies_of_ofExpr (h : ofExpr e = .ok nfa) :
    ∃ T, (⟨nfa.entry, nfa.exit⟩ : Fragment).Occupies nfa.arena T e.crossings :=
  ⟨_, occupies_of_ofExpr h⟩

/-- The automaton of an expression accepts the words through the expression. -/
lemma accepts_iff_of_ofExpr (h : ofExpr e = .ok nfa) (text : String) :
    nfa.accepts text = true ↔ text.toList ∈ e.crossings.through := by
  obtain ⟨same, made, accepts⟩ :=
    construct_of_yields (e.compile_yields (isSupported_of_ofExpr h) .empty)
  obtain rfl : nfa = same := Except.ok.inj (h.symm.trans made)
  exact accepts text

end Automaton

end PatternAutomata
