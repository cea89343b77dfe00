import PatternAutomata.Compile
import PatternAutomata.Proofs.Combinators

/-!
# Words of compiled expressions

An expression without flags, empty sequences, counted repetitions and the constructs for which there
are no automata is supported, and each supported expression compiles. The repetitions add edges at
the boundaries of what they repeat, so the words that a compiled expression accepts follow from the
crossings of its parts and not from their words alone: `Expr.crossings` computes them.
-/

namespace PatternAutomata

open scoped Computability

open Arena Build Fragment

namespace QuantifierKind

/-- Whether repetitions of a kind can be compiled. -/
def isSupported : QuantifierKind → Bool
  | range _ _ => false
  | _ => true

/-- The crossings of a repetition; counted repetitions have none. -/
def crossings : QuantifierKind → Crossings → Crossings
  | zeroOrMore, L => L.star
  | oneOrMore, L => L.plus
  | zeroOrOne, L => L.optional
  | range _ _, _ => .sequence []

end QuantifierKind

namespace Expr

mutual

/-- Whether an automaton can be made of an expression. -/
def isSupported : Expr → Bool
  | root flags body => flags.isEmpty && body.isSupported
  | sequence items => !items.isEmpty && allSupported items
  | choice left right => left.isSupported && right.isSupported
  | repetition quantifier operand => quantifier.kind.isSupported && operand.isSupported
  | char kind _ => kind == .simple
  | group _ body => body.isSupported
  | charClass _ => false
  | assertion _ => false
  | backreference _ => false

/-- Whether automata can be made of all of some expressions. -/
def allSupported : List Expr → Bool
  | [] => true
  | e :: es => e.isSupported && allSupported es

end

mutual

/-- The crossings of the fragment that an expression compiles to. -/
def crossings : Expr → Crossings
  | root _ body => body.crossings
  | sequence items => .sequence (allCrossings items)
  | choice left right => left.crossings.union right.crossings
  | repetition quantifier operand => quantifier.kind.crossings operand.crossings
  | char _ value => .direct {[value]}
  | group _ body => body.crossings
  | charClass _ => .sequence []
  | assertion _ => .sequence []
  | backreference _ => .sequence []

/-- The crossings of the fragments that some expressions compile to. -/
def allCrossings : List Expr → List Crossings
  | [] => []
  | e :: es => e.crossings :: allCrossings es

end

/-! ### Constructions of expressions -/

/-- A repetition changes the crossings of its operand. -/
lemma repetition_yields {f : Fragment} {a : Arena} {T : Set StateId} {L : Crossings}
    {kind : QuantifierKind} (h : kind.isSupported = true) (own : f.Occupies a T L) :
    Yields (match kind with
      | .zeroOrMore => f.star
      | .oneOrMore => f.plus
      | .zeroOrOne => f.optional
      | .range min max => fail (.unsupported (.countedRepetition (.range min max)))) a T
      (·.Occupies · · (kind.crossings L)) := by
  cases kind with
  | zeroOrMore => exact star_yields own
  | oneOrMore => exact plus_yields own
  | zeroOrOne => exact optional_yields own
  | range min max => cases h

mutual

/-- A supported expression compiles, on top of any arena, to a fragment of new states that has the
crossings of the expression. -/
theorem compile_yields (e : Expr) (h : e.isSupported = true) (a : Arena) :
    e.compile.Yields a ∅ (·.Occupies · · e.crossings) := by
  cases e with
  | root flags body =>
    simp only [isSupported, Bool.and_eq_true] at h
    rw [compile, if_pos h.1, crossings]
    exact compile_yields body h.2 a
  | sequence items =>
    simp only [isSupported, Bool.and_eq_true] at h
    rw [compile, crossings]
    refine (compileAll_yields items h.2 a).bind_new fun fs b _ own => ?_
    rw [Set.empty_union]
    cases items with
    | nil => simp at h
    | cons e es =>
      rw [allCrossings] at own ⊢
      generalize a.added b = T at own
      cases own with
      | cons first others apart => exact concatAll_yields first others apart
  | choice left right =>
    simp only [isSupported, Bool.and_eq_true] at h
    rw [compile, crossings]
    refine (compile_yields left h.1 a).bind_new fun f b _ own => ?_
    rw [Set.empty_union]
    refine (compile_yields right h.2 b).bind_new fun g c framed own' => ?_
    exact union_yields (framed.occupies own (Set.empty_disjoint _)) own'
      (disjoint_added own.lt_size).symm
  | repetition quantifier operand =>
    simp only [isSupported, Bool.and_eq_true] at h
    rw [compile, crossings]
    refine (compile_yields operand h.2 a).bind_new fun f b _ own => ?_
    rw [Set.empty_union]
    exact repetition_yields h.1 own
  | char kind value =>
    rw [isSupported, beq_iff_eq] at h
    subst h
    exact edge_yields a (.char value)
  | group capturing body =>
    rw [compile, crossings]
    exact compile_yields body h a
  | charClass text => cases h
  | assertion text => cases h
  | backreference text => cases h

/-- Supported expressions compile, on top of any arena, to fragments of new states that do not
overlap. -/
theorem compileAll_yields (es : List Expr) (h : allSupported es = true) (a : Arena) :
    (compileAll es).Yields a ∅ (OccupyAll · · · (allCrossings es)) := by
  cases es with
  | nil => exact yields_pure .nil
  | cons e es =>
    simp only [allSupported, Bool.and_eq_true] at h
    rw [compileAll, allCrossings]
    refine (compile_yields e h.1 a).bind_new fun f b _ own => ?_
    rw [Set.empty_union]
    refine (compileAll_yields es h.2 b).bind_new fun fs c framed own' => ?_
    have apart : Disjoint (a.added b) (b.added c) := (disjoint_added own.lt_size).symm
    exact yields_pure (.cons (framed.occupies own (Set.empty_disjoint _)) own' apart)

end

end Expr

namespace Automaton

/-- A supported expression compiles, and its automaton accepts exactly the words from the entry to
the exit of the expression. -/
theorem ofExpr_accepts_iff (e : Expr) (h : e.isSupported = true) :
    ∃ nfa, ofExpr e = .ok nfa ∧
      ∀ text, nfa.accepts text = true ↔ text.toList ∈ e.crossings .entry .exit :=
  construct_of_yields (e.compile_yields h .empty)

/-- A repetition of a sequence that ends with a repetition, as in `(ab*)*`. -/
def nestedRepetition : Expr :=
  .repetition ⟨.zeroOrMore, true⟩ (.group true (.sequence
    [.char .simple 'a', .repetition ⟨.zeroOrMore, true⟩ (.char .simple 'b')]))

theorem ofExpr_accepts_iff_nestedRepetition : nestedRepetition.isSupported = true ∧
    ∃ nfa, ofExpr nestedRepetition = .ok nfa ∧ ∀ text,
      nfa.accepts text = true ↔ text.toList ∈ nestedRepetition.crossings .entry .exit :=
  ⟨by decide, ofExpr_accepts_iff nestedRepetition (by decide)⟩

end Automaton

end PatternAutomata
