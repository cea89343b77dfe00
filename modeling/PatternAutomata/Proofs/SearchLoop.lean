import PatternAutomata.Proofs.Search
import PatternAutomata.Proofs.StackLoop

/-!
# The search as a loop over a stack

The search for an accepting path can be run as a loop over a stack of spots. A turn takes the spot
on top and drops it if it has been entered. Otherwise it enters the spot, puts the spots to which
edges lead that consume nothing on the stack, cuts the text at the place of the spot to see the
character behind it, and puts the spots to which that character leads on top. At the end of the text
the answer is yes if the state accepts; without spots on the stack the answer is no.

Two things could go wrong, on which `SearchLoop.turn?` fails: the state of a spot may not be there,
and a text can only be cut between two characters, so never within the bytes of one. Neither happens
since all spots on the stack have been reached by paths (`SearchLoop.Invariant.placed`). Apart from
its answer the loop is a `StackLoop` along the edges between spots, so it enters no spot twice and
ends, whatever cycles there are; its answer is that of `Automaton.accepts`, which looks at all spots
that can be reached, although the loop stops at the first that accepts.
-/

namespace PatternAutomata

namespace Spot

/-- The character behind a place at which a text is cut, none at the end. Elsewhere than in front of
a character or at the end a text cannot be cut. -/
def cut? (text : String) (offset : Nat) : Option (Option Char) :=
  if String.Pos.Raw.isValid text ⟨offset⟩ then some (charAt? text offset) else none

/-- A spot is that of a state at a place where the text can be cut. -/
structure Placed (nfa : Automaton) (text : String) (spot : Spot) : Prop where
  state_lt : spot.state < nfa.size
  isValid : String.Pos.Raw.IsValid text ⟨spot.offset⟩

/-- Paths lead to states, and what they spell ends between two characters. -/
lemma ReachedByPath.placed {nfa : Automaton} {text : String} {spot : Spot} (built : nfa.Built)
    (h : ReachedByPath nfa.arena text nfa.entry spot) : spot.Placed nfa text := by
  obtain ⟨u, v, split, offset, path⟩ := h
  refine ⟨built.lt_of_reach path.reach, String.Pos.Raw.isValid_iff_exists_append.2
    ⟨String.ofList u, String.ofList v, ?_, ?_⟩⟩
  · rw [← String.ofList_append, split, String.ofList_toList]
  · rw [String.rawEndPos_ofList, offset]

end Spot

/-- What a search has done so far. -/
structure SearchLoop extends StackLoop Spot where
  /-- The places at which the text has been cut. -/
  cuts : List Nat
  /-- The answer, when the search is over. -/
  answer : Option Bool

namespace SearchLoop

/-- In the beginning the entry lies on the stack, at the beginning of the text. -/
def start (nfa : Automaton) : SearchLoop := ⟨.start ⟨nfa.entry, 0⟩, [], none⟩

/-- One turn of the search. It fails if the state on top of the stack is not there or if the text
cannot be cut at its place. -/
def turn? (nfa : Automaton) (text : String) (x : SearchLoop) : Option SearchLoop :=
  match x.stack with
  | [] => some { x with answer := some false }
  | spot :: stack =>
    if spot ∈ x.entered then some { x with stack }
    else
      match nfa.arena.states[spot.state]?, Spot.cut? text spot.offset with
      | some state, some behind =>
        let here := (state.targets .epsilon).map fun t => Spot.mk t spot.offset
        let stack := StackLoop.push stack here.reverse
        let entered := x.entered ++ [spot]
        let cuts := x.cuts ++ [spot.offset]
        match behind with
        | none => some ⟨⟨entered, stack⟩, cuts, if state.accepting then some true else x.answer⟩
        | some c =>
          let ahead := (state.targets (.char c)).map fun t => Spot.mk t (spot.offset + c.utf8Size)
          some ⟨⟨entered, StackLoop.push stack ahead.reverse⟩, cuts, x.answer⟩
      | _, _ => none

/-- Some turns of the search, which is over once there is an answer, lead from one point to
another. -/
def Runs (nfa : Automaton) (text : String) : SearchLoop → SearchLoop → Prop :=
  Relation.ReflTransGen fun x y => x.answer = none ∧ x.turn? nfa text = some y

variable {nfa : Automaton} {text : String} {x y : SearchLoop} {spot : Spot} {rest : List Spot}

/-! ### Single turns -/

/-- The search after a spot on top of others has been entered. -/
def enter (nfa : Automaton) (text : String) (x : SearchLoop) (spot : Spot) (rest : List Spot) :
    SearchLoop where
  entered := x.entered ++ [spot]
  stack := spot.next nfa.arena text ++ rest
  cuts := x.cuts ++ [spot.offset]
  answer := if spot.accepts nfa.arena text then some true else x.answer

/-- The answer is no when the stack is empty. -/
lemma turn?_of_stack_eq_nil (stack : x.stack = []) :
    x.turn? nfa text = some { x with answer := some false } := by
  rw [turn?, stack]

/-- A spot that has been entered is dropped. -/
lemma turn?_of_mem (stack : x.stack = spot :: rest) (old : spot ∈ x.entered) :
    x.turn? nfa text = some { x with stack := rest } := by
  rw [turn?, stack]
  exact if_pos old

/-- A spot that has not been entered is entered if that is possible. -/
lemma turn?_of_notMem (stack : x.stack = spot :: rest) (new : spot ∉ x.entered)
    (placed : spot.Placed nfa text) : x.turn? nfa text = some (x.enter nfa text spot rest) := by
  have there : nfa.arena.states[spot.state]? = some (nfa.arena.state spot.state) := by
    rw [Arena.state, Array.getElem?_eq_getElem placed.state_lt, Option.getD_some]
  have cut : Spot.cut? text spot.offset = some (Spot.charAt? text spot.offset) :=
    if_pos (String.Pos.Raw.isValid_eq_true_iff.2 placed.isValid)
  rw [turn?, stack]
  cases behind : Spot.charAt? text spot.offset with
  | none => simp [new, there, cut, behind, enter, Spot.next, Spot.accepts]
  | some c => simp [new, there, cut, behind, enter, Spot.next, Spot.accepts]

/-- A turn does not fail when all spots on the stack are those of states and places: it gives an
answer, drops a spot or enters one. -/
lemma exists_turn (placed : ∀ spot ∈ x.stack, spot.Placed nfa text) :
    ∃ y, x.turn? nfa text = some y ∧
      (x.stack = [] ∧ y = { x with answer := some false } ∨
        ∃ spot rest, x.stack = spot :: rest ∧
          (spot ∈ x.entered ∧ y = { x with stack := rest } ∨
            spot ∉ x.entered ∧ y = x.enter nfa text spot rest)) := by
  cases stack : x.stack with
  | nil => exact ⟨_, turn?_of_stack_eq_nil stack, .inl ⟨rfl, rfl⟩⟩
  | cons spot rest =>
    by_cases old : spot ∈ x.entered
    · exact ⟨_, turn?_of_mem stack old, .inr ⟨spot, rest, rfl, .inl ⟨old, rfl⟩⟩⟩
    · rw [stack, List.forall_mem_cons] at placed
      exact ⟨_, turn?_of_notMem stack old placed.1, .inr ⟨spot, rest, rfl, .inr ⟨old, rfl⟩⟩⟩

/-! ### What every turn keeps -/

/-- What every turn of a search keeps. -/
structure Invariant (nfa : Automaton) (text : String) (x : SearchLoop) : Prop where
  loop : StackLoop.Invariant (Spot.next nfa.arena text) ⟨nfa.entry, 0⟩ x.toStackLoop
  cuts : x.cuts = x.entered.map Spot.offset
  found : x.answer = some true ↔ ∃ spot ∈ x.entered, spot.accepts nfa.arena text = true
  exhausted : x.answer = some false → x.stack = []

lemma invariant_start (nfa : Automaton) (text : String) : Invariant nfa text (start nfa) where
  loop := StackLoop.invariant_start _ _
  cuts := rfl
  found := by simp [start, StackLoop.start]
  exhausted h := nomatch h

namespace Invariant

/-- Whatever has been entered or lies on the stack has been reached by a path. -/
lemma reached (inv : Invariant nfa text x) (h : spot ∈ x.entered ∨ spot ∈ x.stack) :
    Spot.ReachedByPath nfa.arena text nfa.entry spot :=
  Spot.reaches_iff.1 (inv.loop.reaches h)

/-- All spots on the stack are those of states and places. -/
lemma placed (inv : Invariant nfa text x) (built : nfa.Built) :
    ∀ spot ∈ x.stack, spot.Placed nfa text :=
  fun _ mem => (inv.reached (.inr mem)).placed built

/-- Before there is an answer, no spot that has been entered accepts. -/
lemma not_exists_accepts (inv : Invariant nfa text x) (running : x.answer = none) :
    ¬∃ spot ∈ x.entered, spot.accepts nfa.arena text = true := by
  rw [← inv.found, running]
  exact nofun

/-- A spot that is entered decides the answer if it accepts. -/
lemma found_enter (inv : Invariant nfa text x) (running : x.answer = none) :
    (x.enter nfa text spot rest).answer = some true ↔
      ∃ s ∈ (x.enter nfa text spot rest).entered, s.accepts nfa.arena text = true := by
  have vain := inv.not_exists_accepts running
  have entered : (∃ s ∈ x.entered ++ [spot], s.accepts nfa.arena text = true) ↔
      spot.accepts nfa.arena text = true := by
    simp only [List.mem_append, List.mem_singleton, or_and_right, exists_or, vain, false_or,
      exists_eq_left]
  rw [enter, entered, running]
  simp

/-- One turn keeps the invariant. Unless it gives an answer for want of spots, it is a turn of a
loop over a stack. -/
lemma exists_turn (inv : Invariant nfa text x) (built : nfa.Built) (running : x.answer = none) :
    ∃ y, x.turn? nfa text = some y ∧ Invariant nfa text y ∧
      (y.answer = some false ∨
        x.toStackLoop.turn? (Spot.next nfa.arena text) = some y.toStackLoop) := by
  obtain ⟨y, turn, ⟨nil, rfl⟩ | ⟨spot, rest, cons, ⟨old, rfl⟩ | ⟨new, rfl⟩⟩⟩ :=
    SearchLoop.exists_turn (inv.placed built)
  · have vain := inv.not_exists_accepts running
    exact ⟨_, turn, ⟨inv.loop, inv.cuts, by simpa using vain, fun _ => nil⟩, .inl rfl⟩
  · have loop : x.toStackLoop.turn? (Spot.next nfa.arena text) = _ := StackLoop.turn?_of_mem cons old
    refine ⟨_, turn, ⟨inv.loop.turn loop, inv.cuts, inv.found, fun no => ?_⟩, .inr loop⟩
    rw [running] at no
    cases no
  · have loop : x.toStackLoop.turn? (Spot.next nfa.arena text) = _ :=
      StackLoop.turn?_of_notMem cons new
    refine ⟨_, turn, ⟨inv.loop.turn loop, ?_, inv.found_enter running, fun no => ?_⟩, .inr loop⟩
    · rw [enter, List.map_append, ← inv.cuts]
      rfl
    · rw [enter, running] at no
      split at no <;> cases no

/-- The invariant holds throughout the search. -/
lemma of_runs (built : nfa.Built) (h : Runs nfa text (start nfa) x) : Invariant nfa text x := by
  induction h with
  | refl => exact invariant_start nfa text
  | tail _ turn ih =>
    obtain ⟨running, turn⟩ := turn
    obtain ⟨z, turn', inv, -⟩ := ih.exists_turn built running
    obtain rfl := Option.some_inj.1 (turn'.symm.trans turn)
    exact inv

/-- The answer is whether the automaton accepts. -/
lemma answer_eq (inv : Invariant nfa text x) (built : nfa.Built) {b : Bool}
    (h : x.answer = some b) : b = nfa.accepts text := by
  cases b with
  | true =>
    obtain ⟨spot, mem, accepts⟩ := inv.found.1 h
    refine (List.any_eq_true.2 ⟨spot, ?_, accepts⟩).symm
    exact (built.mem_spots_iff text spot).2 (inv.reached (.inl mem))
  | false =>
    have closed := inv.loop.closed (inv.exhausted h)
    refine (List.any_eq_false.2 fun spot mem accepts => ?_).symm
    -- every spot that can be reached has been entered
    have reaches := Spot.reaches_iff.2 ((built.mem_spots_iff text spot).1 mem)
    have entered : spot ∈ x.entered :=
      reaches.mem_of_closed (S := {s | s ∈ x.entered}) closed.next (closed.roots _ (by simp))
    have yes := inv.found.2 ⟨spot, entered, accepts⟩
    rw [h] at yes
    cases yes

/-- The search ends. -/
lemma exists_runs (inv : Invariant nfa text x) (built : nfa.Built) :
    ∃ y, Runs nfa text x y ∧ y.answer = some (nfa.accepts text) := by
  induction rank : x.toStackLoop.rank (nfa.size * (text.utf8ByteSize + 1))
    using WellFoundedLT.induction generalizing x with
  | ind rank ih =>
    cases running : x.answer with
    | some b => exact ⟨x, .refl, inv.answer_eq built running ▸ running⟩
    | none =>
      obtain ⟨y, turn, inv', no | loop⟩ := inv.exists_turn built running
      · exact ⟨y, .single ⟨running, turn⟩, inv'.answer_eq built no ▸ no⟩
      · have small := built.length_spots_le text inv'.loop.nodup fun s hs => inv'.reached (.inl hs)
        obtain ⟨z, runs, answer⟩ := ih _ (rank ▸ StackLoop.rank_turn loop small) inv' rfl
        exact ⟨z, .head ⟨running, turn⟩ runs, answer⟩

end Invariant

end SearchLoop

namespace Automaton

/-- The search of an automaton that is built ends, and its answer is whether the automaton accepts
the text. On the way no spot is entered twice, the text is cut only between two characters or at one
of its ends, and no turn fails. -/
theorem searchLoop_ends {nfa : Automaton} {f : Fragment} {a : Arena} (h : build f a = .ok nfa)
    (text : String) :
    (∃ x, SearchLoop.Runs nfa text (.start nfa) x ∧ x.answer = some (nfa.accepts text)) ∧
    ∀ x, SearchLoop.Runs nfa text (.start nfa) x →
      x.entered.Nodup ∧
      (∀ offset ∈ x.cuts, offset ≤ text.utf8ByteSize ∧ String.Pos.Raw.IsValid text ⟨offset⟩) ∧
      ∃ y, x.turn? nfa text = some y := by
  have built := Built.of_build h
  refine ⟨(SearchLoop.invariant_start nfa text).exists_runs built, fun x runs => ?_⟩
  have inv := SearchLoop.Invariant.of_runs built runs
  obtain ⟨y, turn, -⟩ := SearchLoop.exists_turn (inv.placed built)
  refine ⟨inv.loop.nodup, fun offset mem => ?_, y, turn⟩
  rw [inv.cuts] at mem
  obtain ⟨spot, entered, rfl⟩ := List.mem_map.1 mem
  have placed := (inv.reached (.inl entered)).placed built
  exact ⟨placed.isValid.le_rawEndPos, placed.isValid⟩

theorem searchLoop_ends_winding :
    ∃ nfa, build ⟨0, 3⟩ windingArena = .ok nfa ∧
      ∃ x, SearchLoop.Runs nfa "éa→" (.start nfa) x ∧ x.answer = some true ∧ x.entered.Nodup ∧
        ∀ offset ∈ x.cuts, offset ≤ 6 ∧ String.Pos.Raw.IsValid "éa→" ⟨offset⟩ := by
  have h : build ⟨0, 3⟩ windingArena = .ok ⟨windingArena, 0, 3⟩ := by decide +kernel
  obtain ⟨⟨x, runs, answer⟩, throughout⟩ := searchLoop_ends h "éa→"
  obtain ⟨nodup, cuts, -⟩ := throughout x runs
  have accepts : accepts ⟨windingArena, 0, 3⟩ "éa→" = true := by decide +kernel
  exact ⟨_, h, x, runs, accepts ▸ answer, nodup, cuts⟩

end Automaton

end PatternAutomata
