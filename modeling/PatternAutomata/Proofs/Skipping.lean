import PatternAutomata.Proofs.Compiled
import PatternAutomata.Proofs.Regular

/-!
# Optional expressions

An expression is made optional by an edge from its entry to its exit, which consumes nothing. When
the entry or the exit has a loop, such an edge is a shortcut and not only a skip: whoever takes it
can begin in the loop at the entry, and can go on in the loop at the exit. Besides the empty word
and the words of the expression, the automaton then accepts the words of these detours
(`Automaton.detours`). It accepts `b` for `(ab*)?`, for example.

Exactly when no detour has a word of its own, `?` means at most once, and so it does for tight
expressions that are not loose.
-/

namespace PatternAutomata

open scoped Computability

namespace Automaton

variable {e : Expr} {m n : Automaton}

/-- The words of the ways from the entry to the exit that take a shortcut from the entry to the exit
as often as they come by. -/
def detours (m : Automaton) : Language Char :=
  m.arena.words m.entry m.entry * (m.arena.words m.exit m.entry)∗ * m.arena.words m.exit m.exit

/-- The empty text belongs to a detour, the shortcut alone. -/
lemma nil_mem_detours (m : Automaton) : [] ∈ m.detours := by
  have one : (1 : Language Char) ≤ m.detours :=
    one_le_mul (one_le_mul (m.arena.one_le_words_self _) one_le_kstar)
      (m.arena.one_le_words_self _)
  exact one rfl

/-- The detours in the automaton of an expression are the ways that a skip adds. -/
lemma through_optional_of_ofExpr (h : ofExpr e = .ok m) :
    e.crossings.optional.through = e.crossings.through + m.detours := by
  obtain ⟨T, own⟩ := exists_occupies_of_ofExpr h
  have back : m.arena.words m.entry m.entry = e.crossings .entry .entry :=
    own.words_eq .entry .entry
  have again : m.arena.words m.exit m.entry = e.crossings .exit .entry :=
    own.words_eq .exit .entry
  have on : m.arena.words m.exit m.exit = e.crossings .exit .exit :=
    own.words_eq .exit .exit
  rw [detours, back, again, on]
  rfl

/-- An optional expression compiles when the expression does. Its automaton accepts the texts of the
expression and those of the detours. It accepts nothing but the empty text and the texts of the
expression exactly when all detours have such texts, as they have for a tight expression that is not
loose. -/
theorem ofExpr_optional_accepts_iff (h : ofExpr e = .ok m) (greedy : Bool) :
    ∃ n, ofExpr (.repetition ⟨.zeroOrOne, greedy⟩ e) = .ok n ∧
      (∀ text, n.accepts text = true ↔ m.accepts text = true ∨ text.toList ∈ m.detours) ∧
      ((∀ text, n.accepts text = true ↔ text = "" ∨ m.accepts text = true) ↔
        ∀ text : String, text.toList ∈ m.detours → text = "" ∨ m.accepts text = true) ∧
      (e.isTight = true → e.isLoose = false →
        ∀ text, n.accepts text = true ↔ text = "" ∨ m.accepts text = true) := by
  have supported := isSupported_of_ofExpr h
  obtain ⟨n, made⟩ : ∃ n, ofExpr (.repetition ⟨.zeroOrOne, greedy⟩ e) = .ok n :=
    exists_ofExpr ((Expr.offences_eq_nil_iff _).2 supported)
  have through : ∀ text, n.accepts text = true ↔ text.toList ∈ e.crossings.optional.through :=
    accepts_iff_of_ofExpr made
  have accepts : ∀ text, n.accepts text = true ↔
      m.accepts text = true ∨ text.toList ∈ m.detours := by
    intro text
    rw [through, through_optional_of_ofExpr h, accepts_iff_of_ofExpr h]
    exact Iff.rfl
  refine ⟨n, made, accepts, ⟨fun once text detour => ?_, fun known text => ?_⟩,
    fun tight whole text => ?_⟩
  · exact (once text).1 ((accepts text).2 (.inr detour))
  · rw [accepts]
    constructor
    · rintro (old | detour)
      · exact .inr old
      · exact known text detour
    · rintro (rfl | old)
      · exact .inr m.nil_mem_detours
      · exact .inl old
  · have snug := (e.through_eq_of_isTight supported tight).2 whole
    have empty : text.toList ∈ (1 : Language Char) ↔ text = "" := String.toList_eq_nil_iff
    rw [through, snug.optional_through (Expr.one_le_crossings supported), Language.mem_add, empty,
      accepts_iff_of_ofExpr h]

/-- A sequence that ends with a loop, as in `ab*`. -/
def endingLoop : Expr :=
  .sequence [.char .simple 'a', .repetition ⟨.zeroOrMore, true⟩ (.char .simple 'b')]

/-- A sequence with a loop inside, as in `ab*c`. -/
def enclosedLoop : Expr :=
  .sequence [.char .simple 'a', .repetition ⟨.zeroOrMore, true⟩ (.char .simple 'b'),
    .char .simple 'c']

theorem ofExpr_optional_accepts_iff_loops :
    (∃ m n, ofExpr endingLoop = .ok m ∧
      ofExpr (.repetition ⟨.zeroOrOne, true⟩ endingLoop) = .ok n ∧
        (∀ text, n.accepts text = true ↔ m.accepts text = true ∨ text.toList ∈ m.detours) ∧
        ((∀ text, n.accepts text = true ↔ text = "" ∨ m.accepts text = true) ↔
          ∀ text : String, text.toList ∈ m.detours → text = "" ∨ m.accepts text = true)) ∧
    ∃ m n, ofExpr enclosedLoop = .ok m ∧
      ofExpr (.repetition ⟨.zeroOrOne, false⟩ enclosedLoop) = .ok n ∧
        ∀ text, n.accepts text = true ↔ text = "" ∨ m.accepts text = true := by
  constructor
  · obtain ⟨m, made⟩ := exists_ofExpr (e := endingLoop) (by decide)
    obtain ⟨n, optional, accepts, once, -⟩ := ofExpr_optional_accepts_iff made true
    exact ⟨m, n, made, optional, accepts, once⟩
  · obtain ⟨m, made⟩ := exists_ofExpr (e := enclosedLoop) (by decide)
    obtain ⟨n, optional, -, -, once⟩ := ofExpr_optional_accepts_iff made false
    exact ⟨m, n, made, optional, once (by decide) (by decide)⟩

/-- The automaton of `(ab*)?` accepts `b`, which is not empty and which that of `ab*` does not
accept: the shortcut leads into the loop at the end. -/
theorem optional_accepts_withinLoop :
    ∃ m n, ofExpr endingLoop = .ok m ∧
      ofExpr (.repetition ⟨.zeroOrOne, true⟩ endingLoop) = .ok n ∧
        n.accepts "b" = true ∧ ¬("b" = "" ∨ m.accepts "b" = true) := by
  have once : (ofExpr endingLoop).toOption.map (·.accepts "b") = some false := by decide +kernel
  have optional : (ofExpr (.repetition ⟨.zeroOrOne, true⟩ endingLoop)).toOption.map
      (·.accepts "b") = some true := by decide +kernel
  obtain ⟨m, hm⟩ := exists_ofExpr (e := endingLoop) (by decide)
  obtain ⟨n, hn⟩ := exists_ofExpr (e := .repetition ⟨.zeroOrOne, true⟩ endingLoop) (by decide)
  rw [hm] at once
  rw [hn] at optional
  have refused : m.accepts "b" = false := Option.some_inj.1 once
  refine ⟨m, n, hm, hn, Option.some_inj.1 optional, ?_⟩
  rw [refused]
  decide

end Automaton

end PatternAutomata
