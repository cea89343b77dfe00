import Mathlib.Data.Set.Function
import PatternAutomata.Proofs.Determinization

/-!
# Tables do not depend on identifiers

The identifiers of states are places in an arena and mean nothing. Suppose that an injective map
renames the states that can be reached from one state, and that another arena has the renamed states
under the new names (`Arena.Renaming`). Then walks enter states and renamed states in the same
order, which is one induction over the steps of a walk (`Walk.Image.step`). Discovery orders and
closures are therefore renamed, numbers stay as they are, and the numbered tables are equal
(`Automaton.Renamed.table_eq`), whatever else there is in the two arenas.

A special case is an arena that has changed in none of the states that can be reached.
-/

namespace PatternAutomata

/-! ### Images of walks -/

/-- What is dropped from the front of a list does not depend on the names of its members. -/
lemma dropWhile_map_of_agree {α β : Type} {φ : α → β} {p : α → Bool} {q : β → Bool} {l : List α}
    (agree : ∀ x ∈ l, q (φ x) = p x) : (l.map φ).dropWhile q = (l.dropWhile p).map φ := by
  induction l with
  | nil => rfl
  | cons x l ih =>
    have rest := ih fun y hy => agree y (List.mem_cons_of_mem x hy)
    rw [List.map_cons, List.dropWhile_cons, List.dropWhile_cons, agree x List.mem_cons_self, rest]
    split <;> rfl

section Images

variable {α β : Type} [Ord α] [Ord β] {next : α → List α} {next' : β → List β} {φ : α → β}
  {S : Set α} {w : Walk α} {w' : Walk β}

/-- A walk among the nodes `S`, and a walk that has entered their images and waits to enter their
images. -/
structure Walk.Image (φ : α → β) (S : Set α) (w : Walk α) (w' : Walk β) : Prop where
  within : ∀ x, x ∈ w.trail.toList ∨ x ∈ w.pending → x ∈ S
  trail : w'.trail.toList = w.trail.toList.map φ
  pending : w'.pending = w.pending.map φ

/-- A function renames the nodes `S` of one graph to nodes of another one with the same edges. -/
structure Renames (next : α → List α) (next' : β → List β) (φ : α → β) (S : Set α) : Prop where
  injective : Set.InjOn φ S
  closed : ∀ x ∈ S, ∀ y ∈ next x, y ∈ S
  edges : ∀ x ∈ S, next' (φ x) = (next x).map φ

/-- The image of a node has been entered when the node has. -/
lemma Walk.Image.has_eq (image : Image φ S w w') (injective : Set.InjOn φ S) {x : α} (hx : x ∈ S) :
    w'.trail.has (φ x) = w.trail.has x := by
  rw [Bool.eq_iff_iff, Trail.has_iff, Trail.has_iff, image.trail, List.mem_map]
  constructor
  · rintro ⟨y, hy, same⟩
    rwa [← injective (image.within y (.inl hy)) hx same]
  · intro mem
    exact ⟨x, mem, rfl⟩

variable [Std.TransOrd α] [Std.LawfulEqOrd α] [Std.TransOrd β] [Std.LawfulEqOrd β]

/-- A walk and its image go on together, or neither does. -/
lemma Walk.Image.step (image : Image φ S w w') (renames : Renames next next' φ S) :
    (w.step? next = none ∧ w'.step? next' = none) ∨
      ∃ v v', w.step? next = some v ∧ w'.step? next' = some v' ∧ Image φ S v v' := by
  have waiting : w'.pending.dropWhile w'.trail.has =
      (w.pending.dropWhile w.trail.has).map φ := by
    rw [image.pending]
    apply dropWhile_map_of_agree
    intro x hx
    exact image.has_eq renames.injective (image.within x (.inr hx))
  cases first : w.pending.dropWhile w.trail.has with
  | nil =>
    left
    rw [first] at waiting
    simp [step?, first, waiting]
  | cons x rest =>
    right
    rw [first, List.map_cons] at waiting
    have within : ∀ y ∈ x :: rest, y ∈ S := by
      intro y hy
      rw [← first] at hy
      exact image.within y (.inr ((List.dropWhile_suffix _).subset hy))
    have hx : x ∈ S := within x List.mem_cons_self
    refine ⟨⟨w.trail.visit x, next x ++ rest⟩, ⟨w'.trail.visit (φ x), next' (φ x) ++ rest.map φ⟩,
      by rw [step?, first], by rw [step?, waiting], ?_, ?_, ?_⟩
    · intro y hy
      rw [Trail.toList_visit, List.mem_append] at hy
      rcases hy with hy | hy | hy
      · split at hy
        · exact image.within y (.inl hy)
        · rcases List.mem_append.1 hy with hy | hy
          · exact image.within y (.inl hy)
          · exact List.mem_singleton.1 hy ▸ hx
      · exact renames.closed x hx y hy
      · exact within y (List.mem_cons_of_mem x hy)
    · rw [Trail.toList_visit, Trail.toList_visit, image.has_eq renames.injective hx, image.trail]
      split
      · rfl
      · rw [List.map_append, List.map_singleton]
    · rw [renames.edges x hx, List.map_append]

/-- The image of a walk enters the images of what the walk enters. -/
lemma Walk.Image.run (image : Image φ S w w') (renames : Renames next next' φ S) (capacity : Nat) :
    Image φ S (w.run next capacity) (w'.run next' capacity) := by
  induction capacity generalizing w w' with
  | zero => exact image
  | succ capacity ih =>
    rw [Walk.run, Walk.run]
    rcases image.step renames with ⟨stop, stop'⟩ | ⟨v, v', step, step', image'⟩
    · rw [stop, stop']
      exact image
    · rw [step, step']
      exact ih image'

/-- Walks with room left that start from a node and from its image enter nodes and their images in
the same order, whatever their capacities are. -/
lemma Renames.preorder_eq (renames : Renames next next' φ S) {r : α} (hr : r ∈ S)
    {capacity capacity' : Nat} (room : (preorder next capacity [r]).length < capacity)
    (room' : (preorder next' capacity' [φ r]).length < capacity') :
    preorder next' capacity' [φ r] = (preorder next capacity [r]).map φ := by
  have start : Walk.Image φ S (Walk.start [r]) (Walk.start [φ r]) := by
    refine ⟨fun x hx => ?_, rfl, rfl⟩
    rcases hx with hx | hx
    · simp [Walk.start] at hx
    · rwa [List.mem_singleton.1 hx]
  have both : preorder next' (capacity + capacity') [φ r] =
      (preorder next (capacity + capacity') [r]).map φ :=
    (start.run renames (capacity + capacity')).trail
  rwa [preorder_eq_of_length_lt room (Nat.le_add_right capacity capacity'),
    preorder_eq_of_length_lt room' (Nat.le_add_left capacity' capacity)] at both

end Images

/-! ### Renamed states -/

namespace State

variable {s : State} {φ : StateId → StateId} {t : StateId}

/-- The state with the same edges to renamed states. -/
def rename (φ : StateId → StateId) (s : State) : State :=
  ⟨s.edges.map fun edge => (edge.1, edge.2.map φ), s.accepting⟩

/-- The targets of a label are renamed. -/
lemma targets_rename (symbol : Symbol) :
    (s.rename φ).targets symbol = (s.targets symbol).map φ := by
  rw [targets, targets, rename]
  induction s.edges with
  | nil => rfl
  | cons edge edges ih =>
    rw [List.map_cons, List.lookup_cons, List.lookup_cons]
    cases symbol == edge.1
    · exact ih
    · rfl

/-- The successors are renamed. -/
lemma successors_rename : (s.rename φ).successors = s.successors.map φ := by
  rw [successors, successors, rename, List.flatMap_map, List.map_flatMap]

/-- The edges that consume characters are renamed. -/
lemma charEdges_rename :
    (s.rename φ).charEdges = s.charEdges.map fun edge => (edge.1, edge.2.map φ) := by
  rw [charEdges, charEdges, rename, List.filterMap_map, List.map_filterMap]
  congr 1
  funext edge
  obtain ⟨symbol, targets⟩ := edge
  cases symbol <;> rfl

/-- The target of an edge that consumes a character is a successor. -/
lemma mem_successors_of_mem_charEdges {edge : Char × List StateId} (h : edge ∈ s.charEdges)
    (ht : t ∈ edge.2) : t ∈ s.successors := by
  obtain ⟨⟨symbol, targets⟩, mem, same⟩ := List.mem_filterMap.1 h
  refine List.mem_flatMap.2 ⟨(symbol, targets), mem, ?_⟩
  cases symbol with
  | epsilon => cases same
  | char c =>
    obtain rfl := Option.some_inj.1 same
    exact ht

end State

namespace Arena

/-- An injective map renames the states that can be reached from a state of one arena, and another
arena has the renamed states. -/
structure Renaming (a : Arena) (s : StateId) (b : Arena) (φ : StateId → StateId) : Prop where
  injective : Set.InjOn φ {t | a.Reach s t}
  state_eq : ∀ t, a.Reach s t → b.state (φ t) = (a.state t).rename φ

namespace Renaming

variable {a b : Arena} {s : StateId} {φ : StateId → StateId}

/-- States that have not changed keep their names. -/
lemma of_agree (agree : ∀ t, a.Reach s t → b.state t = a.state t) : a.Renaming s b id where
  injective := Set.injOn_id _
  state_eq t ht := by
    rw [id_eq, agree t ht, State.rename]
    simp

/-- All edges of the states that can be reached are renamed. -/
lemma renames_successors (renamed : a.Renaming s b φ) :
    Renames (fun id => (a.state id).successors) (fun id => (b.state id).successors) φ
      {t | a.Reach s t} where
  injective := renamed.injective
  closed _ hx _ hy := hx.tail hy
  edges x hx := by rw [renamed.state_eq x hx, State.successors_rename]

/-- The edges that consume nothing are renamed. -/
lemma renames_epsilon (renamed : a.Renaming s b φ) :
    Renames (fun id => (a.state id).targets .epsilon) (fun id => (b.state id).targets .epsilon) φ
      {t | a.Reach s t} where
  injective := renamed.injective
  closed _ hx _ hy := hx.tail (State.mem_successors_of_mem_targets hy)
  edges x hx := by rw [renamed.state_eq x hx, State.targets_rename]

end Renaming

end Arena

/-! ### Renamed automata -/

namespace Automaton

variable {m n : Automaton} {φ : StateId → StateId} {t : StateId} {ids : List StateId}

/-- The walk that discovers the states of an automaton has room left. -/
lemma Built.length_order_lt (built : m.Built) : m.order.length < m.size + 1 :=
  Nat.lt_succ_of_le (length_le_of_forall_lt m.nodup_order built.order_lt)

/-- The walk that lists the closure of a state has room left. -/
lemma Built.length_closure_lt (built : m.Built) (h : t < m.size) :
    (m.arena.closure t).length < m.size + 1 :=
  Nat.lt_succ_of_le (length_le_of_forall_lt (nodup_preorder _ _ _) (built.closure_lt t h))

/-- One automaton is another one with renamed states, as far as they can be reached. -/
structure Renamed (m n : Automaton) (φ : StateId → StateId) : Prop where
  built : m.Built
  built' : n.Built
  entry : n.entry = φ m.entry
  states : m.arena.Renaming m.entry n.arena φ

namespace Renamed

variable (renamed : m.Renamed n φ)
include renamed

/-- The renamed states are discovered in the same order. -/
lemma order_eq : n.order = m.order.map φ := by
  have room := renamed.built.length_order_lt
  have room' := renamed.built'.length_order_lt
  rw [order, Arena.discovery, renamed.entry] at room' ⊢
  exact renamed.states.renames_successors.preorder_eq .refl room room'

/-- The renamed states are all the states that can be reached in the renamed automaton. -/
lemma bijOn_reach : Set.BijOn φ {t | m.arena.Reach m.entry t} {t | n.arena.Reach n.entry t} := by
  have image : ∀ u, n.arena.Reach n.entry u ↔ ∃ t, m.arena.Reach m.entry t ∧ φ t = u := by
    intro u
    simp only [← renamed.built'.mem_order_iff, ← renamed.built.mem_order_iff, renamed.order_eq,
      List.mem_map]
  refine ⟨fun t ht => (image _).2 ⟨t, ht, rfl⟩, renamed.states.injective, fun u hu => ?_⟩
  exact (image u).1 hu

/-- The closures list the renamed states in the same order. -/
lemma closure_eq (ht : m.arena.Reach m.entry t) :
    n.arena.closure (φ t) = (m.arena.closure t).map φ := by
  have ht' : n.arena.Reach n.entry (φ t) := renamed.bijOn_reach.mapsTo ht
  have room := renamed.built.length_closure_lt (renamed.built.lt_of_reach ht)
  have room' := renamed.built'.length_closure_lt (renamed.built'.lt_of_reach ht')
  exact renamed.states.renames_epsilon.preorder_eq ht room room'

/-- A renamed state keeps its number. -/
lemma number?_eq (ht : m.arena.Reach m.entry t) : n.number? (φ t) = m.number? t := by
  have place : ∀ i : ℕ, n.order[i]? = some (φ t) ↔ m.order[i]? = some t := by
    intro i
    rw [renamed.order_eq, List.getElem?_map, Option.map_eq_some_iff]
    constructor
    · rintro ⟨u, hu, same⟩
      have reach := renamed.built.mem_order_iff.1 (List.mem_of_getElem? hu)
      rwa [← renamed.states.injective reach ht same]
    · intro h
      exact ⟨t, h, rfl⟩
  ext k
  rw [number?_eq_some_iff, number?_eq_some_iff]
  exact exists_congr fun i => and_congr_right fun _ => place i

/-- Renamed states keep their numbers. -/
lemma filterMap_number?_eq (reach : ∀ t ∈ ids, m.arena.Reach m.entry t) :
    (ids.map φ).filterMap n.number? = ids.filterMap m.number? := by
  rw [List.filterMap_map]
  apply List.filterMap_congr
  intro t ht
  exact renamed.number?_eq (reach t ht)

/-- The targets of each character keep their numbers. -/
lemma numberedEdges_eq (ht : m.arena.Reach m.entry t) :
    ((n.arena.state (φ t)).charEdges.map fun edge => (edge.1, edge.2.filterMap n.number?)) =
      (m.arena.state t).charEdges.map fun edge => (edge.1, edge.2.filterMap m.number?) := by
  rw [renamed.states.state_eq t ht, State.charEdges_rename, List.map_map]
  apply List.map_congr_left
  intro edge mem
  have reach : ∀ u ∈ edge.2, m.arena.Reach m.entry u := by
    intro u hu
    exact ht.tail (State.mem_successors_of_mem_charEdges mem hu)
  exact congrArg (Prod.mk edge.1) (renamed.filterMap_number?_eq reach)

/-- The members of a closure keep their numbers. -/
lemma numberedClosure_eq (ht : m.arena.Reach m.entry t) :
    (n.arena.closure (φ t)).filterMap n.number? = (m.arena.closure t).filterMap m.number? := by
  rw [renamed.closure_eq ht]
  apply renamed.filterMap_number?_eq
  intro u hu
  exact ht.trans ((renamed.built.mem_closure_iff (renamed.built.lt_of_reach ht)).1 hu).reach

/-- The accepting states are renamed. -/
lemma acceptingStates_eq : n.acceptingStates = m.acceptingStates.map φ := by
  rw [acceptingStates, acceptingStates, renamed.order_eq, List.filter_map]
  congr 1
  apply List.filter_congr
  intro t ht
  rw [Function.comp_apply, renamed.states.state_eq t (renamed.built.mem_order_iff.1 ht)]
  rfl

/-- The characters are first used in the same order. -/
lemma alphabet_eq : n.alphabet = m.alphabet := by
  rw [alphabet, alphabet, renamed.order_eq, List.flatMap_map]
  congr 1
  apply List.flatMap_congr
  intro t ht
  rw [renamed.states.state_eq t (renamed.built.mem_order_iff.1 ht), State.charEdges_rename,
    List.map_map]
  rfl

/-- The numbered table is the same. -/
theorem table_eq : n.table = m.table := by
  have reach : ∀ t ∈ m.order, m.arena.Reach m.entry t := fun t => renamed.built.mem_order_iff.1
  simp only [table, NumberedTable.mk.injEq]
  refine ⟨?_, ?_, renamed.alphabet_eq⟩
  · rw [renamed.order_eq, List.map_map]
    congr 1
    apply List.map_congr_left
    intro t ht
    exact congrArg₂ NumberedRow.mk (renamed.numberedEdges_eq (reach t ht))
      (renamed.numberedClosure_eq (reach t ht))
  · rw [renamed.acceptingStates_eq]
    apply renamed.filterMap_number?_eq
    intro t ht
    exact reach t (List.mem_of_mem_filter ht)

end Renamed

/-- Automata with the same table accept the same texts. -/
lemma Built.accepts_eq_of_table_eq (hm : m.Built) (hn : n.Built) (h : n.table = m.table)
    (text : String) : n.accepts text = m.accepts text := by
  have language : ∀ {k : Automaton}, k.Built →
      k.accepts text = (Dfa.ofTable k.table).accepts text := by
    intro k built
    rw [Bool.eq_iff_iff, built.accepts_iff]
    exact (built.accepts_determinize_iff text).symm
  rw [language hn, language hm, h]

/-- When an injective map renames the states that can be reached from the entry of one automaton to
states of another one, and the entry to the entry, both have the same numbered table and the same
deterministic automaton, in every order that these keep. -/
theorem table_eq_of_renaming {f g : Fragment} {a b : Arena} (hm : build f a = .ok m)
    (hn : build g b = .ok n) (entry : φ f.entry = g.entry) (renamed : a.Renaming f.entry b φ) :
    n.table = m.table ∧ n.determinize = m.determinize := by
  obtain ⟨rfl, -⟩ := build_eq_ok_iff.1 hm
  obtain ⟨rfl, -⟩ := build_eq_ok_iff.1 hn
  have same := Renamed.table_eq ⟨.of_build hm, .of_build hn, entry.symm, renamed⟩
  exact ⟨same, congrArg Dfa.ofTable same⟩

/-- The states of `tangledArena` that can be reached, in another order and with a state between them
that cannot be reached. -/
def shuffledArena : Arena :=
  ⟨#[⟨[(.char 'b', [3, 4])], false⟩, ⟨[(.char 'y', [1])], true⟩, ⟨[(.epsilon, [4, 0])], true⟩,
    ⟨[], true⟩, ⟨[(.char 'a', [2]), (.epsilon, [2])], false⟩]⟩

/-- The names in `shuffledArena` of the states of `tangledArena`. -/
def shuffle (s : StateId) : StateId := [4, 2, 0, 3].getD s s

theorem table_eq_of_renaming_shuffled : ∃ m n, build ⟨0, 3⟩ tangledArena = .ok m ∧
    build ⟨4, 3⟩ shuffledArena = .ok n ∧ shuffle 0 = 4 ∧
      tangledArena.Renaming 0 shuffledArena shuffle ∧
        n.table = m.table ∧ n.determinize = m.determinize := by
  have hm : build ⟨0, 3⟩ tangledArena = .ok ⟨tangledArena, 0, 3⟩ := by decide +kernel
  have hn : build ⟨4, 3⟩ shuffledArena = .ok ⟨shuffledArena, 4, 3⟩ := by decide +kernel
  have order : (⟨tangledArena, 0, 3⟩ : Automaton).order = [0, 1, 2, 3] := by decide +kernel
  have mem : ∀ t, tangledArena.Reach 0 t → t ∈ [0, 1, 2, 3] := by
    intro t ht
    rw [← order]
    exact (Built.of_build hm).mem_order_iff.2 ht
  have renamed : tangledArena.Renaming 0 shuffledArena shuffle := by
    refine ⟨fun s hs t ht => ?_, fun t ht => ?_⟩
    · have injective : ∀ s ∈ [0, 1, 2, 3], ∀ t ∈ [0, 1, 2, 3], shuffle s = shuffle t → s = t := by
        decide
      exact injective s (mem s hs) t (mem t ht)
    · have states : ∀ t ∈ [0, 1, 2, 3],
          shuffledArena.state (shuffle t) = (tangledArena.state t).rename shuffle := by
        decide
      exact states t (mem t ht)
  exact ⟨_, _, hm, hn, rfl, renamed, table_eq_of_renaming hm hn rfl renamed⟩

end Automaton

end PatternAutomata
