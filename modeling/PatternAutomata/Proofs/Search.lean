import Mathlib.Data.List.ProdSigma
import Mathlib.Data.String.Basic
import PatternAutomata.Automaton.Search
import PatternAutomata.Proofs.Built

/-!
# The search decides acceptance

The search of an automaton walks through spots, that is, through states at places of a text. It can
reach a state at a place exactly when some path from the entry spells the text before that place
(`Spot.reaches_iff`). The places are those between two characters, so there are no more spots than
states times bytes, the end included, and the walk goes on until no spot waits. Hence the automaton
accepts a text exactly when a path from the entry to an accepting state spells it
(`Automaton.Built.accepts_iff`), that is, when there are edges that can be taken one after the other
from the entry to an accepting state and that consume the characters of the text, in order, and
nothing else (`Automaton.accepts_iff_exists_edges`).
-/

namespace PatternAutomata

open String (utf8Len)

namespace Spot

variable {a : Arena} {text : String} {u v : List Char} {s t : StateId}

/-- The character behind a first part of a text is the first one of the rest. -/
lemma charAt?_utf8Len (h : u ++ v = text.toList) : charAt? text (utf8Len u) = v.head? := by
  have := String.get?_of_valid u v
  rwa [h, String.ofList_toList] at this

/-- A spot has been reached by a path if a path from the entry spells the text before it. -/
def ReachedByPath (a : Arena) (text : String) (entry : StateId) (spot : Spot) : Prop :=
  ∃ u v, u ++ v = text.toList ∧ spot.offset = utf8Len u ∧ a.Path entry u spot.state

/-- One edge leads from a spot that is reached by a path to others. -/
lemma ReachedByPath.next {entry : StateId} {spot spot' : Spot}
    (h : ReachedByPath a text entry spot) (edge : spot' ∈ spot.next a text) :
    ReachedByPath a text entry spot' := by
  obtain ⟨u, v, split, offset, path⟩ := h
  rw [Spot.next, offset, charAt?_utf8Len split, List.mem_append] at edge
  rcases edge with ahead | here
  · cases v with
    | nil => simp at ahead
    | cons c v =>
      obtain ⟨t, ht, rfl⟩ := List.mem_map.1 ahead
      refine ⟨u ++ [c], v, by simpa using split, ?_, path.append (.char ht (.refl t))⟩
      simp [String.utf8Len_append]
  · obtain ⟨t, ht, rfl⟩ := List.mem_map.1 here
    refine ⟨u, v, split, rfl, ?_⟩
    simpa using path.append (.epsilon ht (.refl t))

/-- A path from a spot leads along the edges between spots. -/
lemma reaches_of_path (path : a.Path s v t) {w : List Char} (split : u ++ v ++ w = text.toList) :
    Reaches (Spot.next a text) ⟨s, utf8Len u⟩ ⟨t, utf8Len (u ++ v)⟩ := by
  induction path generalizing u with
  | refl s =>
    rw [List.append_nil]
    exact .refl
  | @epsilon s r t v edge _ ih =>
    refine .head ?_ (ih split)
    simp [Spot.next, edge]
  | @char s r t c v edge _ ih =>
    have rest : u ++ c :: (v ++ w) = text.toList := by simpa using split
    have ih := ih (u := u ++ [c]) (by simpa using split)
    rw [List.append_assoc, List.singleton_append, String.utf8Len_append] at ih
    refine .head ?_ ih
    simp [Spot.next, charAt?_utf8Len rest, edge]

/-- The spots that the search can reach are those that are reached by paths. -/
lemma reaches_iff {entry : StateId} {spot : Spot} :
    Reaches (Spot.next a text) ⟨entry, 0⟩ spot ↔ ReachedByPath a text entry spot := by
  refine ⟨fun h => ?_, fun ⟨u, v, split, offset, path⟩ => ?_⟩
  · induction h with
    | refl => exact ⟨[], text.toList, rfl, rfl, .refl entry⟩
    | tail _ edge ih => exact ih.next edge
  · have := reaches_of_path (u := []) path (w := v) (by simpa using split)
    rw [List.nil_append, ← offset] at this
    exact this

end Spot

namespace Automaton.Built

variable {nfa : Automaton}

/-- The spots that can be reached are no more than the search may visit. -/
lemma length_spots_le (built : nfa.Built) (text : String) {l : List Spot} (nodup : l.Nodup)
    (h : ∀ spot ∈ l, Spot.ReachedByPath nfa.arena text nfa.entry spot) :
    l.length ≤ nfa.size * (text.utf8ByteSize + 1) := by
  have injective : Function.Injective fun spot : Spot => (spot.state, spot.offset) := by
    rintro ⟨s, i⟩ ⟨t, j⟩ h
    simp_all
  have inside : l.map (fun spot => (spot.state, spot.offset)) ⊆
      List.range nfa.size ×ˢ List.range (text.utf8ByteSize + 1) := by
    intro pair hpair
    obtain ⟨spot, hspot, rfl⟩ := List.mem_map.1 hpair
    obtain ⟨u, v, split, offset, path⟩ := h spot hspot
    have : spot.offset ≤ text.utf8ByteSize := by
      rw [← String.ofList_toList (s := text), String.utf8ByteSize_ofList, ← split, offset,
        String.utf8Len_append]
      exact Nat.le_add_right _ _
    exact List.pair_mem_product.2 ⟨List.mem_range.2 (built.lt_of_reach path.reach),
      List.mem_range.2 (Nat.lt_succ_of_le this)⟩
  have := (List.subperm_of_subset (nodup.map injective) inside).length_le
  rwa [List.length_map, List.length_product, List.length_range, List.length_range] at this

/-- The search visits exactly the spots that are reached by paths. -/
lemma mem_spots_iff (built : nfa.Built) (text : String) (spot : Spot) :
    spot ∈ nfa.spots text ↔ Spot.ReachedByPath nfa.arena text nfa.entry spot := by
  have closed : Closed (Spot.next nfa.arena text) [⟨nfa.entry, 0⟩] (nfa.spots text) := by
    refine closed_preorder_of_bound
      (S := {spot | Spot.ReachedByPath nfa.arena text nfa.entry spot}) ?_ ?_ ?_
    · intro spot hspot
      obtain rfl := List.mem_singleton.1 hspot
      exact Spot.reaches_iff.1 .refl
    · exact fun spot hspot spot' edge => Spot.ReachedByPath.next hspot edge
    · exact fun l nodup h => built.length_spots_le text nodup h
  rw [spots, mem_preorder_iff closed, ← Spot.reaches_iff]
  simp

/-- An automaton accepts a text exactly when a path from its entry to an accepting state spells
it. -/
lemma accepts_iff (built : nfa.Built) (text : String) :
    nfa.accepts text = true ↔
      ∃ t, nfa.arena.Path nfa.entry text.toList t ∧ (nfa.arena.state t).accepting = true := by
  rw [accepts, List.any_eq_true]
  constructor
  · rintro ⟨spot, visited, accepted⟩
    obtain ⟨u, v, split, offset, path⟩ := (built.mem_spots_iff text spot).1 visited
    rw [Spot.accepts, offset, Spot.charAt?_utf8Len split, Bool.and_eq_true] at accepted
    obtain ⟨atEnd, accepting⟩ := accepted
    have : v = [] := by simpa using atEnd
    rw [this, List.append_nil] at split
    exact ⟨spot.state, split ▸ path, accepting⟩
  · rintro ⟨t, path, accepting⟩
    have split : text.toList ++ [] = text.toList := List.append_nil _
    refine ⟨⟨t, utf8Len text.toList⟩, ?_, ?_⟩
    · exact (built.mem_spots_iff text _).2 ⟨text.toList, [], split, rfl, path⟩
    · rw [Spot.accepts, Spot.charAt?_utf8Len split, accepting]
      rfl

end Automaton.Built

/-! ### Paths edge by edge -/

/-- The character that an edge with a label consumes, if any. -/
def Symbol.char? : Symbol → Option Char
  | epsilon => none
  | char c => some c

namespace Arena

variable {a : Arena} {s t : StateId} {w : List Char}

/-- Edges, each given by its label and its target, can be taken one after the other from a state to
another one. -/
def Follows (a : Arena) : StateId → List (Symbol × StateId) → StateId → Prop
  | s, [], t => s = t
  | s, (symbol, r) :: edges, t => r ∈ (a.state s).targets symbol ∧ a.Follows r edges t

/-- The edges of a path consume the characters of its word. -/
lemma Path.exists_edges (path : a.Path s w t) :
    ∃ edges, a.Follows s edges t ∧ edges.filterMap (·.1.char?) = w := by
  induction path with
  | refl s => exact ⟨[], rfl, rfl⟩
  | @epsilon s r t w edge _ ih =>
    obtain ⟨edges, follows, consumed⟩ := ih
    exact ⟨(.epsilon, r) :: edges, ⟨edge, follows⟩, consumed⟩
  | @char s r t c w edge _ ih =>
    obtain ⟨edges, follows, consumed⟩ := ih
    refine ⟨(.char c, r) :: edges, ⟨edge, follows⟩, ?_⟩
    rw [List.filterMap_cons, consumed]
    rfl

/-- Edges that can be taken one after the other make up a path. -/
lemma Follows.path {edges : List (Symbol × StateId)} (follows : a.Follows s edges t) :
    a.Path s (edges.filterMap (·.1.char?)) t := by
  induction edges generalizing s with
  | nil =>
    cases follows
    exact .refl _
  | cons first edges ih =>
    obtain ⟨symbol, r⟩ := first
    obtain ⟨edge, follows⟩ := follows
    cases symbol with
    | epsilon => exact .epsilon edge (ih follows)
    | char c => exact .char edge (ih follows)

end Arena

namespace Automaton

/-- The search of an automaton that is built accepts a text exactly when edges that can be taken one
after the other lead from the entry to an accepting state and consume the text. -/
theorem accepts_iff_exists_edges {nfa : Automaton} {f : Fragment} {a : Arena}
    (h : build f a = .ok nfa) (text : String) :
    nfa.accepts text = true ↔
      ∃ edges t, nfa.arena.Follows nfa.entry edges t ∧
        edges.filterMap (·.1.char?) = text.toList ∧ (nfa.arena.state t).accepting = true := by
  rw [(Built.of_build h).accepts_iff]
  constructor
  · rintro ⟨t, path, accepting⟩
    obtain ⟨edges, follows, consumed⟩ := path.exists_edges
    exact ⟨edges, t, follows, consumed, accepting⟩
  · rintro ⟨edges, t, follows, consumed, accepting⟩
    refine ⟨t, ?_, accepting⟩
    rw [← consumed]
    exact follows.path

/-- An arena with two cycles of edges that consume nothing, one of them from a state to itself, and
with characters of several widths. -/
def windingArena : Arena :=
  ⟨#[⟨[(.epsilon, [1]), (.char 'é', [2])], false⟩,
    ⟨[(.epsilon, [0, 2]), (.char 'a', [1, 3])], false⟩,
    ⟨[(.epsilon, [2, 0]), (.char '→', [3])], false⟩, ⟨[], true⟩]⟩

theorem accepts_iff_exists_edges_winding :
    ∃ nfa, build ⟨0, 3⟩ windingArena = .ok nfa ∧
      (nfa.accepts "éa→" = true ↔
        ∃ edges t, nfa.arena.Follows nfa.entry edges t ∧
          edges.filterMap (·.1.char?) = "éa→".toList ∧ (nfa.arena.state t).accepting = true) :=
  ⟨⟨windingArena, 0, 3⟩, by decide +kernel,
    accepts_iff_exists_edges (f := ⟨0, 3⟩) (a := windingArena) (by decide +kernel) "éa→"⟩

end Automaton

end PatternAutomata
