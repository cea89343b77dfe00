import PatternAutomata.Proofs.Compilation

/-!
# Compiled expressions and regular languages

Compared with the regular language of the expression, an automaton that is compiled from it never
misses a word: the edges that a repetition adds only add words. It accepts exactly the words of the
language when no repetition that may skip its operand has a loose operand, that is a sequence of
several items with a loop at one of its ends.

The reason is an invariant of crossings. A fragment is `Crossings.Snug` if it can only be passed
through, or if all its crossings are ways through and ways through can be repeated; then skips and
loops add nothing but the empty word and repeated words. Expressions that are not loose are snug
(`Expr.through_eq_of_isTight`).
-/

namespace PatternAutomata

open scoped Computability

namespace Crossings

variable {L : Crossings}

/-- Each crossing is a way through or empty, and ways through can be repeated. -/
structure Looped (L : Crossings) : Prop where
  repeats : L.through * L.through ≤ L.through
  le : ∀ X Y, L X Y ≤ 1 + L.through

/-- A fragment that can only be passed through, or whose crossings add nothing when it is skipped or
repeated. -/
def Snug (L : Crossings) : Prop := L = direct L.through ∨ L.Looped

/-- The crossings of a snug fragment are ways through or empty. -/
lemma Snug.le (snug : L.Snug) (X Y : Side) : L X Y ≤ 1 + L.through := by
  rcases snug with plain | looped
  · rw [plain]
    cases X <;> cases Y
    · exact le_self_add
    · exact le_add_self
    · exact zero_le
    · exact le_self_add
  · exact looped.le X Y

/-- Ways through that can be repeated can be repeated together with the empty word. -/
lemma one_add_mul_one_add {A : Language Char} (h : A * A ≤ A) : (1 + A) * (1 + A) = 1 + A :=
  calc (1 + A) * (1 + A)
    _ = 1 + A + (A + A * A) := by rw [add_mul, one_mul, mul_add, mul_one]
    _ = 1 + A + A := by rw [add_eq_left_iff_le.2 h]
    _ = 1 + A := by rw [add_assoc, add_idem]

/-- A repetition of a snug fragment repeats the words through it. -/
lemma Snug.star_through (snug : L.Snug) : L.star.through = L.through∗ := by
  have below : L.total ≤ L.through∗ := by
    have each : ∀ X Y, L X Y ≤ L.through∗ := fun X Y =>
      (snug.le X Y).trans (add_le one_le_kstar le_kstar)
    exact add_le (add_le (add_le (each _ _) (each _ _)) (each _ _)) (each _ _)
  have above : L.through ≤ L.total := L.le_total .entry .exit
  refine le_antisymm ?_ (kstar_mono above)
  calc L.total∗
    _ ≤ L.through∗∗ := kstar_mono below
    _ = L.through∗ := kstar_idem _

/-- A repetition is looped. -/
lemma looped_star (L : Crossings) : L.star.Looped :=
  ⟨(kstar_mul_kstar _).le, fun _ _ => le_add_self⟩

/-- Another edge adds nothing to a looped fragment but the empty word. -/
lemma Looped.jump_le (looped : L.Looped) (V W X Y : Side) :
    L V W + L V X * (L Y X)∗ * L Y W ≤ 1 + L.through := by
  have idem := one_add_mul_one_add looped.repeats
  have star : (1 + L.through)∗ = 1 + L.through := kstar_eq_self.2 ⟨idem, le_self_add⟩
  calc L V W + L V X * (L Y X)∗ * L Y W
    _ ≤ (1 + L.through) + (1 + L.through) * (1 + L.through)∗ * (1 + L.through) := by
      gcongr <;> exact looped.le _ _
    _ = 1 + L.through := by rw [star, idem, idem, add_idem]

/-! ### Skips -/

lemma optional_direct (A : Language Char) : (direct A).optional = direct (1 + A) := by
  funext X Y
  cases X <;> cases Y <;> simp [optional, direct, between, sup_comm]

/-- A skip of a snug fragment adds the empty word. -/
lemma Snug.optional_through (snug : L.Snug) (h : ∀ X, 1 ≤ L X X) :
    L.optional.through = 1 + L.through := by
  rcases snug with plain | looped
  · rw [plain, optional_direct]
    rfl
  · refine le_antisymm (looped.jump_le _ _ _ _) ?_
    have all : ∀ X Y, L X Y ≤ L.optional.through := fun X Y =>
      (L.le_total X Y).trans (total_le_optional h)
    exact add_le ((h .entry).trans (all _ _)) (all _ _)

/-- Skipping a snug fragment leaves it snug. -/
lemma Snug.optional (snug : L.Snug) (h : ∀ X, 1 ≤ L X X) : L.optional.Snug := by
  have through := snug.optional_through h
  rcases snug with plain | looped
  · left
    rw [plain, optional_direct]
    rfl
  · right
    refine ⟨?_, fun X Y => ?_⟩
    · rw [through, one_add_mul_one_add looped.repeats]
    · rw [through]
      exact (looped.jump_le _ _ _ _).trans le_add_self

/-! ### Loops -/

lemma plus_direct (A : Language Char) : (direct A).plus = between A∗ (A * A∗) A∗ A∗ := by
  have ss : 1 + A * A∗ * 1 = A∗ := by rw [mul_one, one_add_mul_kstar]
  have es : 0 + 1 * A∗ * 1 = A∗ := by rw [zero_add, one_mul, mul_one]
  have ee : 1 + 1 * A∗ * A = A∗ := by rw [one_mul, one_add_kstar_mul]
  funext X Y
  cases X <;> cases Y
  · exact ss
  · exact plus_through (direct A)
  · exact es
  · exact ee

/-- Looping a snug fragment makes it looped. -/
lemma Snug.plus (snug : L.Snug) : L.plus.Looped := by
  rcases snug with plain | looped
  · rw [plain, plus_direct]
    generalize L.through = A
    have above : A * A∗ ≤ A∗ := mul_kstar_le_kstar
    have all : A∗ = 1 + A * A∗ := one_add_mul_kstar.symm
    refine ⟨?_, fun X Y => ?_⟩
    · calc A * A∗ * (A * A∗)
        _ ≤ A * A∗ * A∗ := by gcongr
        _ = A * A∗ := by rw [mul_assoc, kstar_mul_kstar]
    · cases X <;> cases Y
      · exact all.le
      · exact le_add_self
      · exact all.le
      · exact all.le
  · have through : L.plus.through = L.through := by
      rw [plus_through]
      exact le_antisymm (mul_kstar_le_self looped.repeats) (le_mul_of_one_le_right' one_le_kstar)
    refine ⟨?_, fun X Y => ?_⟩
    · rw [through]
      exact looped.repeats
    · rw [through]
      exact looped.jump_le _ _ _ _

end Crossings

/-! ### Regular languages -/

/-- The words of a repetition; a counted one, of which no automaton is made, has none. -/
def QuantifierKind.language : QuantifierKind → Language Char → Language Char
  | zeroOrMore, L => L∗
  | oneOrMore, L => L * L∗
  | zeroOrOne, L => 1 + L
  | range _ _, _ => 0

/-- Whether repetitions of a kind may skip what they repeat. -/
def QuantifierKind.skips : QuantifierKind → Bool
  | zeroOrMore => true
  | zeroOrOne => true
  | _ => false

namespace Expr

mutual

/-- The words of an expression as a regular expression; that of which no automaton is made has
none. -/
def language : Expr → Language Char
  | root _ body => body.language
  | sequence items => (allLanguages items).prod
  | choice left right => left.language + right.language
  | repetition quantifier operand => quantifier.kind.language operand.language
  | char _ value => {[value]}
  | group _ body => body.language
  | charClass _ => 0
  | assertion _ => 0
  | backreference _ => 0

/-- The words of some expressions. -/
def allLanguages : List Expr → List (Language Char)
  | [] => []
  | e :: es => e.language :: allLanguages es

end

mutual

/-- Whether an expression begins or ends with a loop. -/
def loopsAt (X : Side) : Expr → Bool
  | root _ body => body.loopsAt X
  | sequence items => itemsLoopAt X items
  | choice _ _ => false
  | repetition quantifier operand => quantifier.kind != .zeroOrOne || operand.loopsAt X
  | char _ _ => false
  | group _ body => body.loopsAt X
  | charClass _ => false
  | assertion _ => false
  | backreference _ => false

/-- Whether the first of some expressions begins with a loop or the last of them ends with one. -/
def itemsLoopAt (X : Side) : List Expr → Bool
  | [] => false
  | [e] => e.loopsAt X
  | e :: f :: es =>
    match X with
    | .entry => e.loopsAt X
    | .exit => itemsLoopAt X (f :: es)

end

mutual

/-- Whether an expression is, within groups and repetitions, a sequence of several items that begins
or ends with a loop. -/
def isLoose : Expr → Bool
  | root _ body => body.isLoose
  | sequence items => itemsLoose items
  | choice _ _ => false
  | repetition _ operand => operand.isLoose
  | char _ _ => false
  | group _ body => body.isLoose
  | charClass _ => false
  | assertion _ => false
  | backreference _ => false

/-- Whether the sequence of some expressions is loose. -/
def itemsLoose : List Expr → Bool
  | [] => false
  | [e] => e.isLoose
  | e :: f :: es => itemsLoopAt .entry (e :: f :: es) || itemsLoopAt .exit (e :: f :: es)

end

mutual

/-- Whether no repetition of an expression that may skip its operand has a loose operand. -/
def isTight : Expr → Bool
  | root _ body => body.isTight
  | sequence items => allTight items
  | choice left right => left.isTight && right.isTight
  | repetition quantifier operand =>
    operand.isTight && !(quantifier.kind.skips && operand.isLoose)
  | char _ _ => true
  | group _ body => body.isTight
  | charClass _ => true
  | assertion _ => true
  | backreference _ => true

/-- Whether all of some expressions are tight. -/
def allTight : List Expr → Bool
  | [] => true
  | e :: es => e.isTight && allTight es

end

/-! ### Words that are never missing -/

/-- The empty word leads from a side of a supported expression to itself. -/
lemma one_le_crossings {e : Expr} (h : e.isSupported = true) (X : Side) : 1 ≤ e.crossings X X := by
  obtain ⟨f, a, -, -, own⟩ := e.compile_yields h .empty
  exact own.one_le X

/-- A repetition keeps the words of its operand. -/
lemma language_le_crossings {kind : QuantifierKind} {L : Crossings} {A : Language Char}
    (h : kind.isSupported = true) (one : ∀ X, 1 ≤ L X X) (below : A ≤ L.through) :
    kind.language A ≤ (kind.crossings L).through := by
  have total : A ≤ L.total := below.trans (L.le_total _ _)
  cases kind with
  | zeroOrMore => exact kstar_mono total
  | oneOrMore =>
    refine le_trans ?_ (Crossings.plus_through L).ge
    exact mul_le_mul' below (kstar_mono below)
  | zeroOrOne =>
    refine le_trans ?_ (Crossings.total_le_optional one)
    exact add_le ((one .entry).trans (L.le_total _ _)) total
  | range min max => cases h

mutual

/-- The words of a supported expression as a regular expression lead through its fragment. -/
theorem language_le_through (e : Expr) (h : e.isSupported = true) :
    e.language ≤ e.crossings.through := by
  cases e with
  | root flags body =>
    simp only [isSupported, Bool.and_eq_true] at h
    exact language_le_through body h.2
  | sequence items =>
    simp only [isSupported, Bool.and_eq_true] at h
    cases items with
    | nil => simp at h
    | cons e es =>
      rw [language, crossings, allCrossings, Crossings.sequence_through]
      exact prod_allLanguages_le (e :: es) h.2
  | choice left right =>
    simp only [isSupported, Bool.and_eq_true] at h
    exact add_le_add (language_le_through left h.1) (language_le_through right h.2)
  | repetition quantifier operand =>
    simp only [isSupported, Bool.and_eq_true] at h
    exact language_le_crossings h.1 (one_le_crossings h.2) (language_le_through operand h.2)
  | char kind value => exact le_rfl
  | group capturing body => exact language_le_through body h
  | charClass text => cases h
  | assertion text => cases h
  | backreference text => cases h

/-- Joined words of supported expressions lead through their fragments. -/
theorem prod_allLanguages_le (es : List Expr) (h : allSupported es = true) :
    (allLanguages es).prod ≤ ((allCrossings es).map Crossings.through).prod := by
  cases es with
  | nil => exact le_rfl
  | cons e es =>
    simp only [allSupported, Bool.and_eq_true] at h
    exact mul_le_mul' (language_le_through e h.1) (prod_allLanguages_le es h.2)

end

/-! ### Sides without a loop -/

mutual

/-- Nothing but the empty word leads to a side of a fragment where it has no loop. -/
theorem crossings_of_loopsAt (X : Side) (e : Expr) (h : e.isSupported = true)
    (none : e.loopsAt X = false) : e.crossings X X = 1 ∧ e.crossings .exit .entry = 0 := by
  cases e with
  | root flags body =>
    simp only [isSupported, Bool.and_eq_true] at h
    exact crossings_of_loopsAt X body h.2 none
  | sequence items =>
    simp only [isSupported, Bool.and_eq_true] at h
    exact sequence_of_itemsLoopAt X items h.2 (by simpa using h.1) none
  | choice left right => cases X <;> exact ⟨rfl, rfl⟩
  | repetition quantifier operand =>
    simp only [isSupported, Bool.and_eq_true] at h
    simp only [loopsAt, Bool.or_eq_false_iff, bne_eq_false_iff_eq] at none
    obtain ⟨stays, never⟩ := crossings_of_loopsAt X operand h.2 none.2
    rw [crossings, none.1]
    have skip : ∀ V W, operand.crossings.optional V W = operand.crossings V W +
        operand.crossings V .entry * operand.crossings .exit W := by
      intro V W
      rw [Crossings.optional, never, kstar_zero, mul_one]
    refine ⟨?_, ?_⟩
    · cases X with
      | entry => rw [QuantifierKind.crossings, skip, never, mul_zero, add_zero, stays]
      | exit => rw [QuantifierKind.crossings, skip, never, zero_mul, add_zero, stays]
    · rw [QuantifierKind.crossings, skip, never, zero_mul, add_zero]
  | char kind value => cases X <;> exact ⟨rfl, rfl⟩
  | group capturing body => exact crossings_of_loopsAt X body h none
  | charClass text => cases h
  | assertion text => cases h
  | backreference text => cases h

/-- Nothing but the empty word leads to a side of a sequence where it has no loop. -/
theorem sequence_of_itemsLoopAt (X : Side) (es : List Expr) (h : allSupported es = true)
    (ne : es ≠ []) (none : itemsLoopAt X es = false) :
    Crossings.sequence (allCrossings es) X X = 1 ∧
      Crossings.sequence (allCrossings es) .exit .entry = 0 := by
  match es, ne with
  | [e], _ =>
    simp only [allSupported, Bool.and_true] at h
    exact crossings_of_loopsAt X e h none
  | e :: f :: es, _ =>
    simp only [allSupported, Bool.and_eq_true] at h
    refine ⟨?_, rfl⟩
    cases X with
    | entry => exact (crossings_of_loopsAt .entry e h.1 none).1
    | exit =>
      have rest : allSupported (f :: es) = true := by simp [allSupported, h.2]
      rw [allCrossings, allCrossings, Crossings.sequence_exit]
      exact (sequence_of_itemsLoopAt .exit (f :: es) rest (List.cons_ne_nil f es) none).1

end

/-! ### Words of tight expressions -/

/-- A repetition with a snug operand, or one that never skips, has the words of a regular
expression. -/
lemma crossings_through_of_snug {kind : QuantifierKind} {L : Crossings}
    (h : kind.isSupported = true) (one : ∀ X, 1 ≤ L X X) (snug : kind.skips = true → L.Snug) :
    (kind.crossings L).through = kind.language L.through := by
  cases kind with
  | zeroOrMore => exact (snug rfl).star_through
  | oneOrMore => exact L.plus_through
  | zeroOrOne => exact (snug rfl).optional_through one
  | range min max => cases h

/-- Repetitions of a snug operand are snug. -/
lemma snug_crossings {kind : QuantifierKind} {L : Crossings} (h : kind.isSupported = true)
    (one : ∀ X, 1 ≤ L X X) (snug : L.Snug) : (kind.crossings L).Snug := by
  cases kind with
  | zeroOrMore => exact .inr L.looped_star
  | oneOrMore => exact .inr snug.plus
  | zeroOrOne => exact snug.optional one
  | range min max => cases h

mutual

/-- Tight expressions have exactly the words of a regular expression, and they are snug unless they
are loose. -/
theorem through_eq_of_isTight (e : Expr) (h : e.isSupported = true) (tight : e.isTight = true) :
    e.crossings.through = e.language ∧ (e.isLoose = false → e.crossings.Snug) := by
  cases e with
  | root flags body =>
    simp only [isSupported, Bool.and_eq_true] at h
    exact through_eq_of_isTight body h.2 tight
  | sequence items =>
    simp only [isSupported, Bool.and_eq_true] at h
    match items with
    | [] => simp at h
    | [e] =>
      simp only [allSupported, Bool.and_true] at h
      simp only [isTight, allTight, Bool.and_true] at tight
      obtain ⟨words, snug⟩ := through_eq_of_isTight e h.2 tight
      refine ⟨?_, snug⟩
      rw [language, allLanguages, allLanguages, List.prod_singleton]
      exact words
    | e :: f :: es =>
      refine ⟨?_, fun whole => .inl (Crossings.eq_direct (fun X => ?_) rfl)⟩
      · rw [crossings, language, ← map_through_of_allTight (e :: f :: es) h.2 tight]
        exact Crossings.sequence_through _ _
      · simp only [isLoose, itemsLoose, Bool.or_eq_false_iff] at whole
        cases X with
        | entry => exact (sequence_of_itemsLoopAt .entry _ h.2 (List.cons_ne_nil _ _) whole.1).1
        | exit => exact (sequence_of_itemsLoopAt .exit _ h.2 (List.cons_ne_nil _ _) whole.2).1
  | choice left right =>
    simp only [isSupported, Bool.and_eq_true] at h
    simp only [isTight, Bool.and_eq_true] at tight
    have words := congrArg₂ (· + ·) (through_eq_of_isTight left h.1 tight.1).1
      (through_eq_of_isTight right h.2 tight.2).1
    exact ⟨words, fun _ => .inl rfl⟩
  | repetition quantifier operand =>
    simp only [isSupported, Bool.and_eq_true] at h
    simp only [isTight, Bool.and_eq_true, Bool.not_eq_true', Bool.and_eq_false_imp] at tight
    obtain ⟨words, snug⟩ := through_eq_of_isTight operand h.2 tight.1
    have one := one_le_crossings h.2
    refine ⟨?_, fun whole => snug_crossings h.1 one (snug whole)⟩
    rw [language, ← words]
    exact crossings_through_of_snug h.1 one fun skips => snug (tight.2 skips)
  | char kind value => exact ⟨rfl, fun _ => .inl rfl⟩
  | group capturing body => exact through_eq_of_isTight body h tight
  | charClass text => cases h
  | assertion text => cases h
  | backreference text => cases h

/-- Tight expressions have exactly the words of regular expressions. -/
theorem map_through_of_allTight (es : List Expr) (h : allSupported es = true)
    (tight : allTight es = true) :
    (allCrossings es).map Crossings.through = allLanguages es := by
  cases es with
  | nil => rfl
  | cons e es =>
    simp only [allSupported, Bool.and_eq_true] at h
    simp only [allTight, Bool.and_eq_true] at tight
    exact congrArg₂ List.cons (through_eq_of_isTight e h.1 tight.1).1
      (map_through_of_allTight es h.2 tight.2)

end

end Expr

namespace Automaton

/-- A supported expression compiles, its automaton accepts all words of the regular expression, and
it accepts no others if no repetition that may skip its operand has a loose one. -/
theorem ofExpr_accepts_language (e : Expr) (h : e.isSupported = true) :
    ∃ nfa, ofExpr e = .ok nfa ∧
      (∀ text, text.toList ∈ e.language → nfa.accepts text = true) ∧
        (e.isTight = true → ∀ text, nfa.accepts text = true ↔ text.toList ∈ e.language) := by
  obtain ⟨nfa, compiled, accepts⟩ := construct_of_yields (e.compile_yields h .empty)
  refine ⟨nfa, compiled, fun text member => ?_, fun tight text => ?_⟩
  · exact (accepts text).2 (e.language_le_through h member)
  · rw [accepts, (e.through_eq_of_isTight h tight).1]

/-- A sequence with repetitions inside of a repetition, as in `(a(b|c)*d)*e+`, that is tight. -/
def tightRepetition : Expr :=
  .sequence
    [.repetition ⟨.zeroOrMore, true⟩ (.group true (.sequence
      [.char .simple 'a',
        .repetition ⟨.zeroOrMore, true⟩ (.group true (.choice (.char .simple 'b')
          (.char .simple 'c'))),
        .char .simple 'd'])),
      .repetition ⟨.oneOrMore, true⟩ (.char .simple 'e')]

theorem ofExpr_accepts_language_tightRepetition :
    (tightRepetition.isSupported = true ∧ tightRepetition.isTight = true) ∧
      ∃ nfa, ofExpr tightRepetition = .ok nfa ∧
        ∀ text, nfa.accepts text = true ↔ text.toList ∈ tightRepetition.language := by
  refine ⟨by decide, ?_⟩
  obtain ⟨nfa, compiled, -, exact⟩ := ofExpr_accepts_language tightRepetition (by decide)
  exact ⟨nfa, compiled, exact (by decide)⟩

-- The automaton of `(ab*)*` accepts a word that begins within its loose operand.
example : (ofExpr (.repetition ⟨.zeroOrMore, true⟩ (.sequence
    [.char .simple 'a', .repetition ⟨.zeroOrMore, true⟩ (.char .simple 'b')]))).toOption.map
      (·.accepts "b") = some true := by decide +kernel

end Automaton

end PatternAutomata
