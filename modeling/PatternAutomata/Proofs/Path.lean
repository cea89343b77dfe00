import Mathlib.Computability.Language
import Mathlib.Order.CompletePartialOrder
import PatternAutomata.Arena
import PatternAutomata.Proofs.Walk

/-!
# Paths of an arena

A path follows the edges of an arena and spells the characters on them; edges that consume nothing
spell nothing. The language of an automaton is that of the paths from its entry to its accepting
states, so paths are what the search, the numbered table and the deterministic automaton are all
compared with.

`Arena.words` collects what the paths between two states spell. States that are closed under edges
keep their words when everything else changes (`words_eq_of_agree`), and one more edge that
consumes nothing changes words by the equation `words_eq_of_links`, from which all words of
constructed fragments are computed.
-/

namespace PatternAutomata

open scoped Computability

namespace State

/-- Every target of a label is a target of some edge. -/
lemma mem_successors_of_mem_targets {s : State} {symbol : Symbol} {t : StateId}
    (h : t ∈ s.targets symbol) : t ∈ s.successors := by
  unfold targets at h
  unfold successors
  generalize s.edges = edges at h ⊢
  induction edges with
  | nil => simp at h
  | cons edge edges ih => grind

/-- Adding an edge adds one target of one label. -/
lemma mem_targets_connect {s : State} {symbol label : Symbol} {t u : StateId} :
    u ∈ (s.connect symbol t).targets label ↔ u ∈ s.targets label ∨ (label = symbol ∧ u = t) := by
  rw [targets_connect]
  split <;> grind

/-- Adding an edge adds one successor. -/
lemma mem_successors_connect {s : State} {symbol : Symbol} {t u : StateId} :
    u ∈ (s.connect symbol t).successors ↔ u ∈ s.successors ∨ u = t := by
  unfold connect successors
  induction s.edges with
  | nil => simp [addTarget]
  | cons edge edges ih =>
    simp only [addTarget]
    split <;> grind

end State

namespace Arena

/-- One state can be reached from another one along edges of any kind. -/
def Reach (a : Arena) : StateId → StateId → Prop := Reaches fun id => (a.state id).successors

/-- The edges of an arena lead from a state to another one and spell a word. -/
inductive Path (a : Arena) : StateId → List Char → StateId → Prop
  | refl (s : StateId) : Path a s [] s
  | epsilon {s t u : StateId} {w : List Char} :
      t ∈ (a.state s).targets .epsilon → Path a t w u → Path a s w u
  | char {s t u : StateId} {c : Char} {w : List Char} :
      t ∈ (a.state s).targets (.char c) → Path a t w u → Path a s (c :: w) u

/-- The words that paths from one state to another one spell. -/
def words (a : Arena) (s t : StateId) : Language Char := {w | a.Path s w t}

/-- Some states are closed under the edges of an arena. -/
def ClosedUnder (a : Arena) (T : Set StateId) : Prop :=
  ∀ s ∈ T, ∀ t ∈ (a.state s).successors, t ∈ T

variable {a b : Arena} {s t u : StateId} {v w : List Char} {T : Set StateId}

@[simp] lemma mem_words : w ∈ a.words s t ↔ a.Path s w t := Iff.rfl

/-! ### Joining and splitting paths -/

/-- Paths are joined. -/
lemma Path.append (h : a.Path s v t) (h' : a.Path t w u) : a.Path s (v ++ w) u := by
  induction h with
  | refl => exact h'
  | epsilon edge _ ih => exact .epsilon edge (ih h')
  | char edge _ ih => exact .char edge (ih h')

/-- A path is split where a first part of its word has been spelled. -/
lemma path_append_iff : a.Path s (v ++ w) u ↔ ∃ t, a.Path s v t ∧ a.Path t w u := by
  refine ⟨fun h => ?_, fun ⟨t, h, h'⟩ => h.append h'⟩
  generalize hx : v ++ w = x at h
  induction h generalizing v with
  | refl s =>
    obtain ⟨rfl, rfl⟩ := List.append_eq_nil_iff.1 hx
    exact ⟨s, .refl s, .refl s⟩
  | epsilon edge _ ih =>
    obtain ⟨r, h, h'⟩ := ih hx
    exact ⟨r, .epsilon edge h, h'⟩
  | @char s t u c x edge path ih =>
    rcases v with _ | ⟨d, v⟩
    · exact ⟨s, .refl s, by rw [← List.nil_append w, hx]; exact .char edge path⟩
    · obtain ⟨rfl, rfl⟩ := List.cons_eq_cons.1 hx
      obtain ⟨r, h, h'⟩ := ih rfl
      exact ⟨r, .char edge h, h'⟩

/-- Paths that spell nothing follow the edges that consume nothing. -/
lemma path_nil_iff :
    a.Path s [] t ↔ Reaches (fun id => (a.state id).targets .epsilon) s t := by
  refine ⟨fun h => ?_, fun h => ?_⟩
  · generalize hx : [] = x at h
    induction h with
    | refl => exact .refl
    | epsilon edge _ ih => exact .head edge (ih hx)
    | char => cases hx
  · induction h using Relation.ReflTransGen.head_induction_on with
    | refl => exact .refl t
    | head edge _ ih => exact .epsilon edge ih

/-- A path that spells one character takes one edge that consumes it. -/
lemma path_singleton_iff {c : Char} :
    a.Path s [c] u ↔ ∃ p q, a.Path s [] p ∧ q ∈ (a.state p).targets (.char c) ∧ a.Path q [] u := by
  refine ⟨fun h => ?_, fun ⟨p, q, hp, edge, hq⟩ => hp.append (.char edge hq)⟩
  generalize hx : [c] = x at h
  induction h with
  | refl => cases hx
  | epsilon edge _ ih =>
    obtain ⟨p, q, hp, hq⟩ := ih hx
    exact ⟨p, q, .epsilon edge hp, hq⟩
  | @char s t u d x edge path _ =>
    obtain ⟨rfl, rfl⟩ := List.cons_eq_cons.1 hx
    exact ⟨s, t, .refl s, edge, path⟩

/-- A path that spells a character and more takes an edge that consumes the character, and spells
the rest behind it. -/
lemma path_cons_iff {c : Char} :
    a.Path s (c :: w) u ↔
      ∃ p, a.Path s [] p ∧ ∃ q ∈ (a.state p).targets (.char c), a.Path q w u := by
  rw [← List.singleton_append, path_append_iff]
  constructor
  · rintro ⟨r, first, rest⟩
    obtain ⟨p, q, toP, edge, toR⟩ := path_singleton_iff.1 first
    exact ⟨p, toP, q, edge, toR.append rest⟩
  · rintro ⟨p, toP, q, edge, rest⟩
    exact ⟨q, path_singleton_iff.2 ⟨p, q, toP, edge, .refl q⟩, rest⟩

/-- What a path leads to can be reached. -/
lemma Path.reach (h : a.Path s w t) : a.Reach s t := by
  induction h with
  | refl => exact .refl
  | epsilon edge _ ih => exact .head (State.mem_successors_of_mem_targets edge) ih
  | char edge _ ih => exact .head (State.mem_successors_of_mem_targets edge) ih

/-! ### Closed sets of states -/

/-- A path does not leave a closed set of states. -/
lemma Path.mem (h : a.Path s w t) (closed : a.ClosedUnder T) (hs : s ∈ T) : t ∈ T :=
  Reaches.mem_of_closed closed h.reach hs

/-- A path within a closed set of states is there in every arena with the same states. -/
lemma Path.of_agree (h : a.Path s w t) (closed : a.ClosedUnder T)
    (agree : ∀ s ∈ T, b.state s = a.state s) (hs : s ∈ T) : b.Path s w t := by
  induction h with
  | refl s => exact .refl s
  | epsilon edge _ ih =>
    have inside := closed _ hs _ (State.mem_successors_of_mem_targets edge)
    exact .epsilon (by rwa [agree _ hs]) (ih inside)
  | char edge _ ih =>
    have inside := closed _ hs _ (State.mem_successors_of_mem_targets edge)
    exact .char (by rwa [agree _ hs]) (ih inside)

/-- What is reached within a closed set of states is reached in every arena with the same
states. -/
lemma Reach.of_agree (h : a.Reach s t) (closed : a.ClosedUnder T)
    (agree : ∀ s ∈ T, b.state s = a.state s) (hs : s ∈ T) : b.Reach s t := by
  induction h using Relation.ReflTransGen.head_induction_on with
  | refl => exact .refl
  | @head s r edge _ ih =>
    have edge' : r ∈ (b.state s).successors := by
      rw [agree s hs]
      exact edge
    exact .head edge' (ih (closed s hs r edge))

/-- A closed set of states is closed in every arena with the same states. -/
lemma ClosedUnder.of_agree (closed : a.ClosedUnder T) (agree : ∀ s ∈ T, b.state s = a.state s) :
    b.ClosedUnder T := by
  intro s hs t ht
  rw [agree s hs] at ht
  exact closed s hs t ht

/-- Closed sets of states are closed together. -/
lemma ClosedUnder.union {U : Set StateId} (closed : a.ClosedUnder T) (closed' : a.ClosedUnder U) :
    a.ClosedUnder (T ∪ U) := by
  rintro s (hs | hs) t ht
  · exact .inl (closed s hs t ht)
  · exact .inr (closed' s hs t ht)

/-- The words from a state in a closed set depend on that set alone. -/
lemma words_eq_of_agree (closed : a.ClosedUnder T) (agree : ∀ s ∈ T, b.state s = a.state s)
    (hs : s ∈ T) : b.words s t = a.words s t := by
  ext w
  have closed' := closed.of_agree agree
  have agree' : ∀ s ∈ T, a.state s = b.state s := fun s hs => (agree s hs).symm
  exact ⟨fun h => Path.of_agree h closed' agree' hs, fun h => Path.of_agree h closed agree hs⟩

/-- There are no words out of a closed set of states. -/
lemma words_eq_zero (closed : a.ClosedUnder T) (hs : s ∈ T) (ht : t ∉ T) : a.words s t = 0 := by
  ext w
  simp only [mem_words, Language.notMem_zero, iff_false]
  exact fun path => ht (path.mem closed hs)

/-! ### Words -/

/-- The empty word leads from a state to itself. -/
lemma one_le_words_self (a : Arena) (s : StateId) : 1 ≤ a.words s s := by
  rintro w rfl
  exact .refl s

/-- Words are joined. -/
lemma words_mul_words_le (a : Arena) (s t u : StateId) :
    a.words s t * a.words t u ≤ a.words s u := by
  rintro _ ⟨v, hv, w, hw, rfl⟩
  exact Path.append hv hw

/-- The words that lead back to a state can be repeated. -/
lemma kstar_words_self (a : Arena) (s : StateId) : (a.words s s)∗ = a.words s s :=
  le_antisymm
    (kstar_le_of_mul_le_right (a.one_le_words_self s) (a.words_mul_words_le s s s)) le_kstar

/-- More edges spell more words. -/
lemma words_mono (edges : ∀ s symbol t, t ∈ (a.state s).targets symbol →
    t ∈ (b.state s).targets symbol) (s t : StateId) : a.words s t ≤ b.words s t := by
  intro w h
  induction h with
  | refl s => exact .refl s
  | epsilon edge _ ih => exact .epsilon (edges _ _ _ edge) ih
  | char edge _ ih => exact .char (edges _ _ _ edge) ih

/-- An arena has the edges of another one, and one more that consumes nothing. -/
def Links (a b : Arena) (x y : StateId) : Prop :=
  ∀ s symbol t, t ∈ (b.state s).targets symbol ↔
    t ∈ (a.state s).targets symbol ∨ (s = x ∧ symbol = .epsilon ∧ t = y)

/-- A word that uses a new edge from `x` to `y` consists of a word to `x`, of words from `y` back to
`x` and of a word from `y`. -/
theorem words_eq_of_links {x y : StateId} (links : Links a b x y) (s t : StateId) :
    b.words s t = a.words s t + a.words s x * (a.words y x)∗ * a.words y t := by
  apply le_antisymm
  · intro w h
    induction h with
    | refl s => exact .inl (.refl s)
    | @epsilon s r t w edge _ ih =>
      rcases (links s .epsilon r).1 edge with old | ⟨rfl, -, rfl⟩
      · have head : 1 ≤ a.words s r := by
          rintro _ rfl
          exact .epsilon old (.refl r)
        have step : ∀ z, a.words r z ≤ a.words s z := fun z =>
          calc a.words r z = 1 * a.words r z := (one_mul _).symm
            _ ≤ a.words s r * a.words r z := by gcongr
            _ ≤ a.words s z := a.words_mul_words_le s r z
        have : a.words r t + a.words r x * (a.words y x)∗ * a.words y t ≤
            a.words s t + a.words s x * (a.words y x)∗ * a.words y t := by
          gcongr <;> exact step _
        exact this ih
      · -- The path goes on from the target of the new edge, possibly back to its source.
        right
        have : a.words r t + a.words r s * (a.words r s)∗ * a.words r t ≤
            a.words s s * (a.words r s)∗ * a.words r t :=
          calc a.words r t + a.words r s * (a.words r s)∗ * a.words r t
            _ = (1 + a.words r s * (a.words r s)∗) * a.words r t := by rw [add_mul, one_mul]
            _ = 1 * (a.words r s)∗ * a.words r t := by rw [one_add_mul_kstar, one_mul]
            _ ≤ a.words s s * (a.words r s)∗ * a.words r t := by
              gcongr
              exact a.one_le_words_self s
        exact this ih
    | @char s r t c w edge _ ih =>
      have old : r ∈ (a.state s).targets (.char c) := by
        rcases (links s (.char c) r).1 edge with old | ⟨-, h, -⟩
        · exact old
        · cases h
      rcases ih with ih | ⟨_, ⟨u, hu, v, hv, rfl⟩, z, hz, rfl⟩
      · exact .inl (.char old ih)
      · exact .inr ⟨_, ⟨c :: u, .char old hu, v, hv, rfl⟩, z, hz, rfl⟩
  · have mono := words_mono fun s symbol t h => (links s symbol t).2 (.inl h)
    have jump : 1 ≤ b.words x y := by
      rintro _ rfl
      exact .epsilon ((links x .epsilon y).2 (.inr ⟨rfl, rfl, rfl⟩)) (.refl y)
    have back : a.words y x ≤ b.words y y :=
      calc a.words y x = a.words y x * 1 := (mul_one _).symm
        _ ≤ b.words y x * b.words x y := by
          gcongr
          exact mono y x
        _ ≤ b.words y y := b.words_mul_words_le y x y
    apply add_le (mono s t)
    calc a.words s x * (a.words y x)∗ * a.words y t
      _ = a.words s x * 1 * (a.words y x)∗ * a.words y t := by rw [mul_one]
      _ ≤ b.words s x * b.words x y * (b.words y y)∗ * b.words y t := by
        gcongr
        · exact mono s x
        · exact mono y t
      _ ≤ b.words s y * b.words y y * b.words y t := by
        rw [kstar_words_self]
        gcongr
        exact b.words_mul_words_le s x y
      _ ≤ b.words s y * b.words y t := by
        gcongr
        exact b.words_mul_words_le s y y
      _ ≤ b.words s t := b.words_mul_words_le s y t

end Arena

end PatternAutomata
