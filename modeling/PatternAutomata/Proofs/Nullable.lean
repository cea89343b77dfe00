import PatternAutomata.Proofs.LiveStates
import PatternAutomata.Proofs.Regular

/-!
# Nullable expressions

A repetition may accept words that its regular expression lacks, but the empty word is never one of
them. It leads through a fragment with a loop only when it leads through the operand, and through
one with a skip it leads anyway; what leads from a side of the operand back to that side does not
matter. So the empty text is accepted exactly when the expression is nullable
(`Automaton.ofExpr_accepts_empty_iff`), by the automaton of the expression as by the deterministic
one, whose start then accepts.
-/

namespace PatternAutomata

open scoped Computability

/-- A word without characters is joined from such words only. -/
lemma nil_mem_mul_iff {A B : Language Char} : [] ∈ A * B ↔ [] ∈ A ∧ [] ∈ B := by
  simp [Language.mem_mul]

namespace Expr

mutual

/-- Whether an expression may be passed without reading a character. -/
def isNullable : Expr → Bool
  | root _ body => body.isNullable
  | sequence items => allNullable items
  | choice left right => left.isNullable || right.isNullable
  | repetition quantifier operand => quantifier.kind.skips || operand.isNullable
  | char _ _ => false
  | group _ body => body.isNullable
  | charClass _ => false
  | assertion _ => false
  | backreference _ => false

/-- Whether all of some expressions may be passed without reading a character. -/
def allNullable : List Expr → Bool
  | [] => true
  | e :: es => e.isNullable && allNullable es

end

/-! ### Nullable expressions have the empty word -/

/-- The empty word is a word of a repetition that may skip its operand, and of one whose operand has
it. -/
lemma nil_mem_language_of_nullable {kind : QuantifierKind} {A : Language Char}
    (h : kind.isSupported = true) (nullable : kind.skips = true ∨ [] ∈ A) :
    [] ∈ kind.language A := by
  cases kind with
  | zeroOrMore => exact Language.nil_mem_kstar A
  | oneOrMore => exact nil_mem_mul_iff.2 ⟨nullable.resolve_left nofun, Language.nil_mem_kstar A⟩
  | zeroOrOne => exact .inl rfl
  | range min max => cases h

mutual

/-- The empty word is a word of the regular expression when that is nullable. -/
theorem nil_mem_language (e : Expr) (h : e.isSupported = true) (nullable : e.isNullable = true) :
    [] ∈ e.language := by
  cases e with
  | root flags body =>
    simp only [isSupported, Bool.and_eq_true] at h
    exact nil_mem_language body h.2 nullable
  | sequence items =>
    simp only [isSupported, Bool.and_eq_true] at h
    exact nil_mem_prod_allLanguages items h.2 nullable
  | choice left right =>
    simp only [isSupported, Bool.and_eq_true] at h
    rw [isNullable, Bool.or_eq_true] at nullable
    exact nullable.imp (nil_mem_language left h.1) (nil_mem_language right h.2)
  | repetition quantifier operand =>
    simp only [isSupported, Bool.and_eq_true] at h
    rw [isNullable, Bool.or_eq_true] at nullable
    exact nil_mem_language_of_nullable h.1 (nullable.imp_right (nil_mem_language operand h.2))
  | char kind value => cases nullable
  | group capturing body => exact nil_mem_language body h nullable
  | charClass text | assertion text | backreference text => cases h

/-- The empty word is joined from words of nullable expressions. -/
theorem nil_mem_prod_allLanguages (es : List Expr) (h : allSupported es = true)
    (nullable : allNullable es = true) : [] ∈ (allLanguages es).prod := by
  cases es with
  | nil => exact rfl
  | cons e es =>
    simp only [allSupported, Bool.and_eq_true] at h
    simp only [allNullable, Bool.and_eq_true] at nullable
    rw [allLanguages, List.prod_cons]
    exact nil_mem_mul_iff.2
      ⟨nil_mem_language e h.1 nullable.1, nil_mem_prod_allLanguages es h.2 nullable.2⟩

end

/-! ### Nothing else is passed without a character -/

/-- The empty word leads through a repetition only when the repetition may skip its operand or the
word leads through the operand. -/
lemma nullable_of_nil_mem_crossings {kind : QuantifierKind} {L : Crossings}
    (empty : [] ∈ (kind.crossings L).through) : kind.skips = true ∨ [] ∈ L.through := by
  cases kind with
  | oneOrMore =>
    have words : [] ∈ L.through * L.through∗ := L.plus_through ▸ empty
    exact .inr (nil_mem_mul_iff.1 words).1
  | zeroOrMore | zeroOrOne => exact .inl rfl
  | range min max => exact absurd empty (Language.notMem_zero _)

mutual

/-- The empty word leads through the fragment of an expression only when that is nullable. -/
theorem isNullable_of_nil_mem_through (e : Expr) (empty : [] ∈ e.crossings.through) :
    e.isNullable = true := by
  cases e with
  | root flags body => exact isNullable_of_nil_mem_through body empty
  | sequence items =>
    cases items with
    | nil => rfl
    | cons e es =>
      rw [crossings, allCrossings, Crossings.sequence_through] at empty
      exact allNullable_of_nil_mem_prod (e :: es) empty
  | choice left right =>
    rw [isNullable, Bool.or_eq_true]
    exact empty.imp (isNullable_of_nil_mem_through left) (isNullable_of_nil_mem_through right)
  | repetition quantifier operand =>
    rw [isNullable, Bool.or_eq_true]
    exact (nullable_of_nil_mem_crossings empty).imp_right (isNullable_of_nil_mem_through operand)
  | char kind value => cases empty
  | group capturing body => exact isNullable_of_nil_mem_through body empty
  | charClass text | assertion text | backreference text =>
    exact absurd empty (Language.notMem_zero _)

/-- The empty word is joined from words through fragments only when the expressions are
nullable. -/
theorem allNullable_of_nil_mem_prod (es : List Expr)
    (empty : [] ∈ ((allCrossings es).map Crossings.through).prod) : allNullable es = true := by
  cases es with
  | nil => rfl
  | cons e es =>
    rw [allCrossings, List.map_cons, List.prod_cons] at empty
    obtain ⟨first, others⟩ := nil_mem_mul_iff.1 empty
    rw [allNullable, isNullable_of_nil_mem_through e first, allNullable_of_nil_mem_prod es others]
    rfl

end

end Expr

namespace Automaton

variable {e : Expr} {nfa : Automaton}

/-- An automaton that is built and the start of its deterministic automaton agree on the empty
text. -/
lemma Built.contains_start_iff (built : nfa.Built) :
    nfa.determinize.accepting.contains Dfa.start = true ↔ nfa.accepts "" = true := by
  rw [built.accepts_iff, ← built.accepts_determinize_iff]
  rfl

/-- The automaton of an expression accepts the empty text, and so does the start of its
deterministic automaton, exactly when the expression is nullable, that is when the empty word is one
of its words as a regular expression. -/
theorem ofExpr_accepts_empty_iff (h : ofExpr e = .ok nfa) :
    (nfa.accepts "" = true ↔ e.isNullable = true) ∧
      (nfa.determinize.accepting.contains Dfa.start = true ↔ e.isNullable = true) ∧
        ([] ∈ e.language ↔ e.isNullable = true) := by
  have supported := isSupported_of_ofExpr h
  have below := e.language_le_through supported
  have language : [] ∈ e.language ↔ e.isNullable = true :=
    ⟨fun word => e.isNullable_of_nil_mem_through (below word), e.nil_mem_language supported⟩
  have accepts : nfa.accepts "" = true ↔ e.isNullable = true := by
    rw [accepts_iff_of_ofExpr h]
    exact ⟨e.isNullable_of_nil_mem_through, fun nullable => below (language.2 nullable)⟩
  exact ⟨accepts, (Built.of_build (run_compile_of_ofExpr h).2).contains_start_iff.trans accepts,
    language⟩

/-- A sequence that may skip an operand with a loop at its end, as in `(ab*)?c`. -/
def skippedLoop : Expr :=
  .sequence
    [.repetition ⟨.zeroOrOne, true⟩ (.group true (.sequence
      [.char .simple 'a', .repetition ⟨.zeroOrMore, true⟩ (.char .simple 'b')])),
     .char .simple 'c']

theorem ofExpr_accepts_empty_iff_skippedLoop : ∃ nfa, ofExpr skippedLoop = .ok nfa ∧
    (nfa.accepts "" = true ↔ skippedLoop.isNullable = true) ∧
      (nfa.determinize.accepting.contains Dfa.start = true ↔ skippedLoop.isNullable = true) ∧
        ([] ∈ skippedLoop.language ↔ skippedLoop.isNullable = true) := by
  obtain ⟨nfa, made⟩ := exists_ofExpr (e := skippedLoop) (by decide)
  exact ⟨nfa, made, ofExpr_accepts_empty_iff made⟩

end Automaton

end PatternAutomata
