import Mathlib.Computability.Language
import PatternAutomata.Proofs.Path
import PatternAutomata.Fragment

/-!
# Crossings of a fragment

The repetitions that add an edge between the boundaries of their operand give it words that start
at its exit or lead back to its entry. What a fragment contributes to an automaton is therefore not
one language but four, one for each side to start from and each side to lead to: its crossings.

The combinators of fragments are here combinators of crossings. Sequences and unions of several
operands are folded from the left (`foldl_concat`, `foldl_union_through`), and a skip and a loop
together give any number of crossings of any kind (`plus_optional`).
-/

namespace PatternAutomata

open scoped Computability

/-- A side of a fragment. -/
inductive Side where
  | entry
  | exit
deriving DecidableEq, Repr

/-- The words from one side of a fragment to another one. -/
abbrev Crossings := Side → Side → Language Char

/-- The words that an edge with a label spells. -/
def Symbol.words : Symbol → Language Char
  | .epsilon => 1
  | .char c => {[c]}

namespace Crossings

/-- Crossings that are given one by one. -/
def between (ss se es ee : Language Char) : Crossings
  | .entry, .entry => ss
  | .entry, .exit => se
  | .exit, .entry => es
  | .exit, .exit => ee

/-- The crossings of a fragment that can only be passed through. -/
def direct (L : Language Char) : Crossings := between 1 L 0 1

/-- The words from the entry to the exit. -/
def through (L : Crossings) : Language Char := L .entry .exit

/-- One after the other. -/
def concat (L M : Crossings) : Crossings :=
  between (L .entry .entry) (L.through * M.through) 0 (M .exit .exit)

/-- One of two. -/
def union (L M : Crossings) : Crossings := direct (L.through + M.through)

/-- With a loop from the exit to the entry. -/
def plus (L : Crossings) : Crossings := fun X Y =>
  L X Y + L X .exit * L.through∗ * L .entry Y

/-- With a skip from the entry to the exit. -/
def optional (L : Crossings) : Crossings := fun X Y =>
  L X Y + L X .entry * (L .exit .entry)∗ * L .exit Y

/-- The words of all kinds. -/
def total (L : Crossings) : Language Char :=
  L .entry .entry + L .entry .exit + L .exit .entry + L .exit .exit

/-- With a skip and a loop. -/
def star (L : Crossings) : Crossings := fun _ _ => L.total∗

/-- With a skip and a loop at boundaries of their own. -/
def freshStar (L : Crossings) : Crossings := between 1 L.through∗ 0 L.through∗

/-- Several, one after the other. -/
def sequence : List Crossings → Crossings
  | [] => between 0 0 0 0
  | [L] => L
  | L :: M :: Ls =>
    between (L .entry .entry) ((L :: M :: Ls).map through).prod 0
      ((M :: Ls).getLast (List.cons_ne_nil M Ls) .exit .exit)

variable {L : Crossings}

lemma union_through (L M : Crossings) :
    (L.union M).through = L.through + M.through := rfl

/-- A fragment where nothing but the empty word leads to a side can only be passed through. -/
lemma eq_direct (stays : ∀ X, L X X = 1) (never : L .exit .entry = 0) : L = direct L.through := by
  funext X Y
  cases X <;> cases Y
  · exact stays .entry
  · rfl
  · exact never
  · exact stays .exit

/-! ### Folded combinators -/

/-- Joining from the left makes a sequence. -/
lemma foldl_concat (L : Crossings) (Ls : List Crossings) :
    Ls.foldl concat L = sequence (L :: Ls) := by
  induction Ls generalizing L with
  | nil => rfl
  | cons M Ls ih =>
    rw [List.foldl_cons, ih]
    rcases Ls with _ | ⟨N, Ls⟩
    · simp [sequence, concat]
    · simp [sequence, concat, through, between, mul_assoc]

/-- The words through a sequence are joined from words through its parts. -/
lemma sequence_through (L : Crossings) (Ls : List Crossings) :
    (sequence (L :: Ls)).through = L.through * (Ls.map through).prod := by
  rcases Ls with _ | ⟨M, Ls⟩
  · simp [sequence]
  · simp [sequence, through, between]

/-- A sequence ends like the sequence without its first part. -/
lemma sequence_exit (L M : Crossings) (Ls : List Crossings) :
    sequence (L :: M :: Ls) .exit .exit = sequence (M :: Ls) .exit .exit := by
  rcases Ls with _ | ⟨N, Ls⟩
  · rfl
  · simp [sequence, between]

/-- The words through a union of several parts are those through one of the parts. -/
lemma foldl_union_through (L : Crossings) (Ls : List Crossings) :
    (Ls.foldl union L).through = L.through + (Ls.map through).sum := by
  induction Ls generalizing L with
  | nil => simp
  | cons M Ls ih => rw [List.foldl_cons, ih, union_through, List.map_cons, List.sum_cons, add_assoc]

/-! ### Skips and loops -/

/-- A loop repeats the words through a fragment. -/
lemma plus_through (L : Crossings) : L.plus.through = L.through * L.through∗ :=
  calc L.through + L.through * L.through∗ * L.through
    _ = L.through * (1 + L.through∗ * L.through) := by rw [mul_add, mul_one, mul_assoc]
    _ = L.through * L.through∗ := by rw [one_add_kstar_mul]

/-- Each crossing is one of all. -/
lemma le_total (L : Crossings) : ∀ X Y, L X Y ≤ L.total
  | .entry, .entry => le_add_right (le_add_right le_self_add)
  | .entry, .exit => le_add_right (le_add_right le_add_self)
  | .exit, .entry => le_add_right le_add_self
  | .exit, .exit => le_add_self

/-- A skip gives crossings of any kind a way through. -/
lemma total_le_optional (h : ∀ X, 1 ≤ L X X) : L.total ≤ L.optional.through := by
  have skip : ∀ {A B C : Language Char}, A ≤ L .entry .entry → B ≤ (L .exit .entry)∗ →
      C ≤ L .exit .exit → A * B * C ≤ L.optional.through := fun hA hB hC => by
    refine le_add_left ?_
    gcongr
  have one := one_le_kstar (a := L .exit .entry)
  refine add_le (add_le (add_le ?_ le_self_add) ?_) ?_
  · simpa using skip le_rfl one (h .exit)
  · simpa using skip (h .entry) le_kstar (h .exit)
  · simpa using skip (h .entry) one le_rfl

/-- A skip and a loop repeat crossings of any kind. -/
lemma plus_optional (h : ∀ X, 1 ≤ L X X) : L.optional.plus = L.star := by
  have bound : ∀ X Y, L.optional X Y ≤ L.total∗ := fun X Y =>
    calc L X Y + L X .entry * (L .exit .entry)∗ * L .exit Y
      _ ≤ L.total∗ + L.total∗ * (L.total∗)∗ * L.total∗ := by
        gcongr <;> exact (L.le_total _ _).trans le_kstar
      _ = L.total∗ := by simp
  have stays : ∀ X, 1 ≤ L.optional X X := fun X => (h X).trans le_self_add
  have through := total_le_optional h
  funext X Y
  refine le_antisymm ?_ ?_
  · calc L.optional X Y + L.optional X .exit * (L.optional .entry .exit)∗ * L.optional .entry Y
      _ ≤ L.total∗ + L.total∗ * (L.total∗)∗ * L.total∗ := by
        gcongr <;> exact bound _ _
      _ = L.total∗ := by simp
  · have start : 1 ≤ L.optional X .exit := by
      cases X
      · exact ((h .entry).trans (L.le_total _ _)).trans through
      · exact stays .exit
    have stop : 1 ≤ L.optional .entry Y := by
      cases Y
      · exact stays .entry
      · exact ((h .entry).trans (L.le_total _ _)).trans through
    calc L.total∗
      _ = 1 * L.total∗ * 1 := by rw [one_mul, mul_one]
      _ ≤ L.optional X .exit * (L.optional .entry .exit)∗ * L.optional .entry Y := by
        gcongr
        exact through
      _ ≤ L.optional.plus X Y := le_add_self

end Crossings

end PatternAutomata
