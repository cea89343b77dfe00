import Mathlib.Order.Interval.Set.LinearOrder
import PatternAutomata.Proofs.Built
import PatternAutomata.Proofs.Crossings
import PatternAutomata.Proofs.Edits
import PatternAutomata.Proofs.Search

/-!
# Territories of fragments

A fragment that a construction has made owns a set of states, its territory: no edge leads out of
it, its exit is the only state in it that accepts, and everything in it lies between its entry and
its exit. `Fragment.Occupies` says this together with the crossings of the fragment.

A construction that uses up a territory leaves all other states as they are (`Arena.Extends`), so
fragments with other territories keep what they have. `Build.Yields` says of a construction that it
succeeds, changes nothing else and makes something that owns the used territory and the new states.
All constructions are specified in this form, and `Build.Yields.bind` puts the specifications
together.
-/

namespace PatternAutomata

open scoped Computability

variable {a b c : Arena} {f g : Fragment} {fs : List Fragment} {T U V : Set StateId}
  {L : Crossings} {Ls : List Crossings}

/-- The state on a side of a fragment. -/
def Fragment.side (f : Fragment) : Side → StateId
  | .entry => f.entry
  | .exit => f.exit

/-- The crossings of a fragment. -/
def Arena.crossings (a : Arena) (f : Fragment) : Crossings := fun X Y =>
  a.words (f.side X) (f.side Y)

/-- The crossings of a fragment one by one. -/
lemma Arena.crossings_eq_between (a : Arena) (f : Fragment) :
    a.crossings f = .between (a.words f.entry f.entry) (a.words f.entry f.exit)
      (a.words f.exit f.entry) (a.words f.exit f.exit) := by
  funext X Y
  cases X <;> cases Y <;> rfl

namespace Fragment

/-- A fragment with the given crossings owns a set of states. -/
structure Occupies (f : Fragment) (a : Arena) (T : Set StateId) (L : Crossings) : Prop where
  entry_mem : f.entry ∈ T
  exit_mem : f.exit ∈ T
  entry_ne_exit : f.entry ≠ f.exit
  lt_size : ∀ s ∈ T, s < a.size
  closed : a.ClosedUnder T
  accepting_iff : ∀ s ∈ T, (a.state s).accepting = true ↔ s = f.exit
  reached : ∀ s ∈ T, a.Reach f.entry s
  leads : ∀ s ∈ T, a.Reach s f.exit
  crossings_eq : a.crossings f = L

/-- Fragments with the given crossings own parts of a set of states that do not overlap. -/
inductive OccupyAll : List Fragment → Arena → Set StateId → List Crossings → Prop
  | nil {a : Arena} : OccupyAll [] a ∅ []
  | cons {f : Fragment} {fs : List Fragment} {a : Arena} {T U : Set StateId} {L : Crossings}
      {Ls : List Crossings} : f.Occupies a T L → OccupyAll fs a U Ls → Disjoint T U →
        OccupyAll (f :: fs) a (T ∪ U) (L :: Ls)

namespace Occupies

lemma side_mem (own : f.Occupies a T L) : ∀ X, f.side X ∈ T
  | .entry => own.entry_mem
  | .exit => own.exit_mem

/-- The words between two sides of a fragment are one of its crossings. -/
lemma words_eq (own : f.Occupies a T L) (X Y : Side) : a.words (f.side X) (f.side Y) = L X Y := by
  rw [← own.crossings_eq]
  rfl

/-- The empty word leads from a side of a fragment to itself. -/
lemma one_le (own : f.Occupies a T L) (X : Side) : 1 ≤ L X X := by
  rw [← own.words_eq]
  exact a.one_le_words_self _

/-- Nothing in a territory but the exit of its fragment accepts. -/
lemma accepting_eq_false (own : f.Occupies a T L) {s : StateId} (hs : s ∈ T) (ne : s ≠ f.exit) :
    (a.state s).accepting = false :=
  Bool.eq_false_iff.2 fun h => ne ((own.accepting_iff s hs).1 h)

/-- A territory stays owned while its states stay as they are. -/
lemma of_agree (own : f.Occupies a T L) (size_le : a.size ≤ b.size)
    (agree : ∀ s ∈ T, b.state s = a.state s) : f.Occupies b T L where
  entry_mem := own.entry_mem
  exit_mem := own.exit_mem
  entry_ne_exit := own.entry_ne_exit
  lt_size s hs := (own.lt_size s hs).trans_le size_le
  closed := own.closed.of_agree agree
  accepting_iff s hs := by rw [agree s hs, own.accepting_iff s hs]
  reached s hs := (own.reached s hs).of_agree own.closed agree own.entry_mem
  leads s hs := (own.leads s hs).of_agree own.closed agree hs
  crossings_eq := by
    funext X Y
    rw [← own.words_eq]
    exact Arena.words_eq_of_agree own.closed agree (own.side_mem X)

/-- The automaton of a fragment is built. -/
lemma build_eq (own : f.Occupies a T L) (bounded : a.Bounded) :
    Automaton.build f a = .ok ⟨a, f.entry, f.exit⟩ :=
  Automaton.build_of_bounded bounded (own.lt_size _ own.entry_mem)

/-- The automaton of a fragment accepts the words through it. -/
lemma accepts_iff (own : f.Occupies a T L) (bounded : a.Bounded) (text : String) :
    Automaton.accepts ⟨a, f.entry, f.exit⟩ text = true ↔ text.toList ∈ L.through := by
  have built := Automaton.Built.of_build (own.build_eq bounded)
  have through : a.words f.entry f.exit = L.through := own.words_eq .entry .exit
  rw [built.accepts_iff, ← through]
  refine ⟨fun ⟨t, path, accepting⟩ => ?_, fun path => ⟨f.exit, path, ?_⟩⟩
  · have inside : t ∈ T := path.mem own.closed own.entry_mem
    rw [own.accepting_iff t inside] at accepting
    rwa [← accepting]
  · exact (own.accepting_iff _ own.exit_mem).2 rfl

end Occupies

/-- Fragments own states of the arena. -/
lemma OccupyAll.lt_size (own : OccupyAll fs a T Ls) : ∀ s ∈ T, s < a.size := by
  induction own with
  | nil => simp
  | cons first _ _ ih =>
    rintro s (hs | hs)
    · exact first.lt_size s hs
    · exact ih s hs

end Fragment

namespace Arena

/-- The states that are in a later arena only. -/
def added (a b : Arena) : Set StateId := Set.Ico a.size b.size

/-- An arena has changed to another one at most within a set of states. -/
structure Extends (a b : Arena) (T : Set StateId) : Prop where
  size_le : a.size ≤ b.size
  frame : ∀ s < a.size, s ∉ T → b.state s = a.state s

@[simp] lemma added_of_size_eq (h : b.size = a.size) : a.added b = ∅ := by
  rw [added, h, Set.Ico_self]

/-- What is added is apart from what has been there. -/
lemma disjoint_added (lt_size : ∀ s ∈ U, s < a.size) : Disjoint (a.added b) U :=
  Set.disjoint_right.2 fun s hs h => absurd h.1 (Nat.not_le.2 (lt_size s hs))

namespace Extends

lemma refl (a : Arena) (T : Set StateId) : a.Extends a T := ⟨le_rfl, fun _ _ _ => rfl⟩

/-- A later change may also touch what an earlier one has added. -/
lemma trans (first : a.Extends b T) (second : b.Extends c (T ∪ a.added b ∪ U)) :
    a.Extends c (T ∪ U) where
  size_le := first.size_le.trans second.size_le
  frame s hs hT := by
    rw [Set.mem_union, not_or] at hT
    have old : s ∉ a.added b := fun h => absurd h.1 (Nat.not_le.2 hs)
    have outside : s ∉ T ∪ a.added b ∪ U := by
      rintro ((h | h) | h)
      · exact hT.1 h
      · exact old h
      · exact hT.2 h
    rw [second.frame s (hs.trans_le first.size_le) outside, first.frame s hs hT.1]

/-- What two changes add is added by the one after the other. -/
lemma added_union_added (first : a.Extends b T) (second : b.Extends c U) :
    a.added b ∪ b.added c = a.added c :=
  Set.Ico_union_Ico_eq_Ico first.size_le second.size_le

/-- A change leaves fragments with other territories as they are. -/
lemma occupies (framed : a.Extends b T) (own : g.Occupies a U L) (apart : Disjoint T U) :
    g.Occupies b U L :=
  own.of_agree framed.size_le fun s hs =>
    framed.frame s (own.lt_size s hs) (Set.disjoint_right.1 apart hs)

/-- A change leaves several fragments with other territories as they are. -/
lemma occupyAll (framed : a.Extends b T) (own : Fragment.OccupyAll fs a U Ls)
    (apart : Disjoint T U) : Fragment.OccupyAll fs b U Ls := by
  induction own with
  | nil => exact .nil
  | cons first _ disjoint ih =>
    rw [Set.disjoint_union_right] at apart
    exact .cons (framed.occupies first apart.1) (ih framed apart.2) disjoint

/-- Targets do not go missing where the changed states are closed under edges. -/
lemma bounded (framed : a.Extends b T) (bounded : a.Bounded)
    (closed : b.ClosedUnder (T ∪ a.added b)) (lt_size : ∀ s ∈ T, s < b.size) : b.Bounded := by
  intro s hs t ht
  have within : ∀ t ∈ T ∪ a.added b, t < b.size := by
    rintro t (h | h)
    · exact lt_size t h
    · exact h.2
  by_cases changed : s ∈ T ∪ a.added b
  · exact within t (closed s changed t ht)
  · rw [Set.mem_union, not_or] at changed
    have old : s < a.size := by
      by_contra h
      exact changed.2 ⟨Nat.not_lt.1 h, hs⟩
    rw [framed.frame s old changed.1] at ht
    exact (bounded s old t ht).trans_le framed.size_le

end Extends

end Arena

namespace Build

/-- A construction succeeds, changes nothing but a territory, and its result owns this territory and
the new states. -/
def Yields {α : Type} (make : Build α) (a : Arena) (T : Set StateId)
    (owns : α → Arena → Set StateId → Prop) : Prop :=
  ∃ r b, make.run a = .ok (r, b) ∧ a.Extends b T ∧ owns r b (T ∪ a.added b)

variable {α β : Type} {make : Build α} {next : α → Build β}
  {owns : α → Arena → Set StateId → Prop} {owns' : β → Arena → Set StateId → Prop}

/-- What is there is yielded without a change. -/
lemma yields_pure {r : α} (own : owns r a T) : Yields (pure r) a T owns :=
  ⟨r, a, rfl, .refl a T, by simpa using own⟩

/-- The second part of a construction may use up what the first part has made and a further
territory. -/
lemma Yields.bind (first : Yields make a T owns) (second : ∀ r b, a.Extends b T →
    owns r b (T ∪ a.added b) → Yields (next r) b (T ∪ a.added b ∪ U) owns') :
    Yields (make >>= next) a (T ∪ U) owns' := by
  obtain ⟨r, b, run, framed, own⟩ := first
  obtain ⟨q, c, run', framed', own'⟩ := second r b framed own
  refine ⟨q, c, (run_bind_of_run run).trans run', framed.trans framed', ?_⟩
  have territory : T ∪ U ∪ a.added c = T ∪ a.added b ∪ U ∪ b.added c := by
    rw [← framed.added_union_added framed', ← Set.union_assoc, Set.union_right_comm T U]
  rwa [territory]

/-- The second part of a construction may use up what the first part has made of new states and a
further territory. -/
lemma Yields.bind_new (first : Yields make a ∅ owns) (second : ∀ r b, a.Extends b ∅ →
    owns r b (a.added b) → Yields (next r) b (U ∪ a.added b) owns') :
    Yields (make >>= next) a U owns' := by
  rw [← Set.empty_union U]
  refine first.bind fun r b framed own => ?_
  rw [Set.empty_union, Set.union_comm]
  exact second r b framed (Set.empty_union (a.added b) ▸ own)

end Build

/-- The automaton that a construction of new states makes accepts the words through its
fragment. -/
lemma Automaton.construct_of_yields {make : Build Fragment}
    (yields : make.Yields .empty ∅ (·.Occupies · · L)) :
    ∃ nfa, construct make = .ok nfa ∧
      ∀ text, nfa.accepts text = true ↔ text.toList ∈ L.through := by
  obtain ⟨f, a, run, framed, own⟩ := yields
  have bounded : a.Bounded := framed.bounded Arena.bounded_empty own.closed (by simp)
  refine ⟨⟨a, f.entry, f.exit⟩, ?_, own.accepts_iff bounded⟩
  rw [construct, run]
  exact own.build_eq bounded

end PatternAutomata
