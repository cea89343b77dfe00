import Mathlib.Data.Finset.Card
import PatternAutomata.Proofs.Edits
import PatternAutomata.Proofs.Search

/-!
# The recursive search

Acceptance can also be decided by recursion. A visit to a state fails at once if the state has been
entered since the last character was consumed. Otherwise it enters the state and looks ahead: at the
end of the text the state has to accept, and else some state that the next character leads to has to
succeed with the rest of the text, for which nothing has been entered yet. If looking ahead is in
vain, the states that are reached without consuming anything are visited one after the other, each
of them with what the visits before it have entered.

What a visit enters in vain is not tried again, although it may have been entered on the way to a
state that is still waiting for its turn. The reason why nothing is missed is that a search that
fails leaves the states that it has entered closed (`Arena.Exhausted`): whatever they lead to
without consuming anything has been entered too, and none of them succeeds by looking ahead. So the
recursion, which forgets all states at every character, and the search through spots, which
remembers all spots to the end, accept the same texts (`Automaton.accepts_eq_visit`).
-/

namespace PatternAutomata

/-- The outcome of a recursive search: whether it has succeeded, and the states that it has entered
without consuming anything, the latest first. -/
structure Outcome where
  success : Bool
  fresh : List StateId

namespace Arena

/-! ### The recursion -/

/-- The number of states that have not been entered. -/
def unentered (a : Arena) (entered : List StateId) : Nat :=
  (Finset.range a.size \ entered.toFinset).card

/-- There are no more states to enter after a visit than before. -/
lemma unentered_append_le (a : Arena) (fresh entered : List StateId) :
    a.unentered (fresh ++ entered) ≤ a.unentered entered := by
  refine Finset.card_le_card (Finset.sdiff_subset_sdiff subset_rfl ?_)
  rw [List.toFinset_append]
  exact Finset.subset_union_right

/-- There are fewer states to enter once a state has been entered. What is entered besides states
leads nowhere. -/
lemma unentered_cons_lt_or (a : Arena) {entered : List StateId} {id : StateId}
    (new : id ∉ entered) :
    a.unentered (id :: entered) < a.unentered entered ∨
      a.unentered (id :: entered) = a.unentered entered ∧
        ((a.state id).targets .epsilon).length = 0 := by
  have erased : a.unentered (id :: entered) =
      ((Finset.range a.size \ entered.toFinset).erase id).card := by
    rw [unentered, List.toFinset_cons, Finset.sdiff_insert]
  rw [erased]
  by_cases h : id < a.size
  · left
    exact Finset.card_erase_lt_of_mem (by simp [h, new])
  · right
    rw [state_of_size_le (Nat.not_lt.1 h), Finset.erase_eq_of_notMem (by simp [h])]
    exact ⟨rfl, rfl⟩

mutual

/-- The recursive search for the rest of a text from a state, when some states have been entered
since the last character was consumed. -/
def visit (a : Arena) (text : List Char) (entered : List StateId) (id : StateId) : Outcome :=
  if id ∈ entered then ⟨false, []⟩
  else if a.advances text id then ⟨true, [id]⟩
  else
    let others := a.visitAny text (id :: entered) ((a.state id).targets .epsilon)
    ⟨others.success, others.fresh ++ [id]⟩
termination_by (text.length, a.unentered entered, 1)
decreasing_by
  · exact .right _ (.right' _ (Nat.zero_le _) Nat.one_pos)
  · rcases a.unentered_cons_lt_or ‹id ∉ entered› with fewer | ⟨same, none⟩
    · exact .right _ (.left _ _ fewer)
    · rw [same, none]
      exact .right _ (.right _ Nat.one_pos)

/-- Whether the search succeeds from a state by looking ahead. -/
def advances (a : Arena) : List Char → StateId → Bool
  | [], id => (a.state id).accepting
  | c :: rest, id => ((a.state id).targets (.char c)).any fun t => (a.visit rest [] t).success
termination_by text => (text.length, 0, 0)
decreasing_by exact .left _ _ (Nat.lt_succ_self _)

/-- The recursive search from some states, one after the other, until it succeeds. -/
def visitAny (a : Arena) (text : List Char) (entered : List StateId) : List StateId → Outcome
  | [] => ⟨false, []⟩
  | id :: ids =>
    let first := a.visit text entered id
    if first.success then first
    else
      let others := a.visitAny text (first.fresh ++ entered) ids
      ⟨others.success, others.fresh ++ first.fresh⟩
termination_by ids => (text.length, a.unentered entered, 2 * ids.length)
decreasing_by
  · refine .right _ (.right _ ?_)
    rw [List.length_cons]
    omega
  · refine .right _ (.right' _ (a.unentered_append_le first.fresh entered) ?_)
    rw [List.length_cons]
    omega

end

/-! ### Searches that fail -/

variable {a : Arena} {text : List Char} {entered fresh later starts : List StateId}
variable {id t : StateId}

/-- What a search from some states has entered when it fails. -/
structure Exhausted (a : Arena) (text : List Char) (entered starts fresh : List StateId) :
    Prop where
  /-- The states that the search was to start from have been entered. -/
  starts : ∀ s ∈ starts, s ∈ fresh ++ entered
  /-- No state that the search has entered succeeds by looking ahead. -/
  fails : ∀ s ∈ fresh, a.advances text s = false
  /-- Whatever these states lead to without consuming anything has been entered. -/
  next : ∀ s ∈ fresh, ∀ t ∈ (a.state s).targets .epsilon, t ∈ fresh ++ entered

/-- A search that enters nothing fails when it was to start from states that had been entered. -/
lemma exhausted_of_subset (h : ∀ s ∈ starts, s ∈ entered) :
    a.Exhausted text entered starts [] where
  starts := h
  fails _ hs := nomatch hs
  next _ hs := nomatch hs

/-- A visit is exhausted when looking ahead is in vain and the visits that follow are exhausted. -/
lemma Exhausted.enter (vain : a.advances text id = false)
    (h : a.Exhausted text (id :: entered) ((a.state id).targets .epsilon) fresh) :
    a.Exhausted text entered [id] (fresh ++ [id]) where
  starts s hs := by
    obtain rfl := List.mem_singleton.1 hs
    simp
  fails s hs := by
    rcases List.mem_append.1 hs with hs | hs
    · exact h.fails s hs
    · obtain rfl := List.mem_singleton.1 hs
      exact vain
  next s hs t ht := by
    rw [List.append_assoc]
    rcases List.mem_append.1 hs with hs | hs
    · exact h.next s hs t ht
    · obtain rfl := List.mem_singleton.1 hs
      exact h.starts t ht

/-- Searches that are exhausted one after the other are exhausted together. -/
lemma Exhausted.append (first : a.Exhausted text entered [id] fresh)
    (others : a.Exhausted text (fresh ++ entered) starts later) :
    a.Exhausted text entered (id :: starts) (later ++ fresh) where
  starts s hs := by
    rw [List.append_assoc]
    rcases List.mem_cons.1 hs with rfl | hs
    · exact List.mem_append_right later (first.starts s (List.mem_singleton_self s))
    · exact others.starts s hs
  fails s hs := (List.mem_append.1 hs).elim (others.fails s) (first.fails s)
  next s hs t ht := by
    rw [List.append_assoc]
    rcases List.mem_append.1 hs with hs | hs
    · exact others.next s hs t ht
    · exact List.mem_append_right later (first.next s hs t ht)

/-- A search that is exhausted and began with nothing entered has missed no state that can be
reached without consuming anything. -/
lemma Exhausted.advances_eq_false (h : a.Exhausted text [] [id] fresh) (path : a.Path id [] t) :
    a.advances text t = false := by
  have start : id ∈ fresh := by simpa using h.starts id
  have closed : ∀ s ∈ fresh, ∀ t ∈ (a.state s).targets .epsilon, t ∈ fresh := by
    simpa using h.next
  exact h.fails t ((path_nil_iff.1 path).mem_of_closed (S := {s | s ∈ fresh}) closed start)

/-! ### What a search finds -/

/-- What the outcome of a search from some states says. -/
structure Tells (a : Arena) (text : List Char) (entered starts : List StateId) (o : Outcome) :
    Prop where
  /-- A search that succeeds has found a state that succeeds by looking ahead. -/
  found : o.success = true → ∃ s ∈ starts, ∃ t, a.Path s [] t ∧ a.advances text t = true
  /-- A search that fails is exhausted. -/
  exhausted : o.success = false → a.Exhausted text entered starts o.fresh

variable {o first others : Outcome}

/-- A search has nothing to do where everything has been entered. -/
lemma tells_of_subset (h : ∀ s ∈ starts, s ∈ entered) :
    a.Tells text entered starts ⟨false, []⟩ :=
  ⟨nofun, fun _ => exhausted_of_subset h⟩

/-- A visit succeeds by looking ahead. -/
lemma tells_of_advances (ahead : a.advances text id = true) :
    a.Tells text entered [id] ⟨true, [id]⟩ :=
  ⟨fun _ => ⟨id, List.mem_singleton_self id, id, .refl id, ahead⟩, nofun⟩

/-- A visit that looks ahead in vain goes on without consuming anything. -/
lemma Tells.enter (vain : a.advances text id = false)
    (h : a.Tells text (id :: entered) ((a.state id).targets .epsilon) o) :
    a.Tells text entered [id] ⟨o.success, o.fresh ++ [id]⟩ where
  found success := by
    obtain ⟨s, edge, t, path, ahead⟩ := h.found success
    exact ⟨id, List.mem_singleton_self id, t, .epsilon edge path, ahead⟩
  exhausted failure := (h.exhausted failure).enter vain

/-- A search stops at the first visit that succeeds. -/
lemma Tells.stop (h : a.Tells text entered [id] first) (success : first.success = true) :
    a.Tells text entered (id :: starts) first where
  found _ := by
    obtain ⟨s, mem, rest⟩ := h.found success
    obtain rfl := List.mem_singleton.1 mem
    exact ⟨s, List.mem_cons_self, rest⟩
  exhausted failure := by
    rw [success] at failure
    cases failure

/-- A search goes on behind a visit that fails. -/
lemma Tells.append (h : a.Tells text entered [id] first) (failure : first.success = false)
    (h' : a.Tells text (first.fresh ++ entered) starts others) :
    a.Tells text entered (id :: starts) ⟨others.success, others.fresh ++ first.fresh⟩ where
  found success := by
    obtain ⟨s, mem, rest⟩ := h'.found success
    exact ⟨s, List.mem_cons_of_mem id mem, rest⟩
  exhausted failure' := (h.exhausted failure).append (h'.exhausted failure')

/-- Every visit tells whether a state that succeeds by looking ahead can be reached without
consuming anything. -/
lemma tells_visit (a : Arena) (text : List Char) (entered : List StateId) (id : StateId) :
    a.Tells text entered [id] (a.visit text entered id) := by
  -- Looking ahead is about the rest of the text, of which nothing has to be known here.
  refine (visit.mutual_induct a
    (fun text entered id => a.Tells text entered [id] (a.visit text entered id))
    (fun text entered ids => a.Tells text entered ids (a.visitAny text entered ids))
    (fun _ _ => True) ?entered ?ahead ?vain ?nowhere ?stop ?goOn ?atEnd ?behind).1 text entered id
  case entered =>
    intro text entered id old
    rw [visit, if_pos old]
    exact tells_of_subset (List.forall_mem_singleton.2 old)
  case ahead =>
    intro text entered id new ahead _
    rw [visit, if_neg new, if_pos ahead]
    exact tells_of_advances ahead
  case vain =>
    intro text entered id new vain _ ih
    rw [visit, if_neg new, if_neg vain]
    exact ih.enter (Bool.eq_false_iff.2 vain)
  case nowhere =>
    intro text entered
    rw [visitAny]
    exact tells_of_subset nofun
  case stop =>
    intro text entered id ids first success ih
    rw [visitAny, if_pos success]
    exact ih.stop success
  case goOn =>
    intro text entered id ids first failure ih ih'
    rw [visitAny, if_neg failure]
    exact ih.append (Bool.eq_false_iff.2 failure) ih'
  case atEnd => exact fun _ => trivial
  case behind => exact fun _ _ _ _ => trivial

/-- A visit with nothing entered before it succeeds exactly when a state that succeeds by looking
ahead can be reached without consuming anything. -/
lemma visit_success_iff_exists_advances :
    (a.visit text [] id).success = true ↔ ∃ t, a.Path id [] t ∧ a.advances text t = true := by
  have tells := a.tells_visit text [] id
  constructor
  · intro success
    obtain ⟨s, mem, rest⟩ := tells.found success
    obtain rfl := List.mem_singleton.1 mem
    exact rest
  · rintro ⟨t, path, ahead⟩
    by_contra failure
    have vain := (tells.exhausted (Bool.eq_false_iff.2 failure)).advances_eq_false path
    rw [ahead] at vain
    cases vain

/-- A visit in vain has entered every state of the cycles, each of them once. -/
example : Automaton.windingArena.visit ['b'] [] 0 = ⟨false, [2, 1, 0]⟩ := by cbv

/-- A visit with nothing entered before it succeeds exactly when a path to an accepting state spells
the rest of the text. -/
theorem visit_success_iff :
    (a.visit text [] id).success = true ↔
      ∃ t, a.Path id text t ∧ (a.state t).accepting = true := by
  induction text generalizing id with
  | nil =>
    rw [visit_success_iff_exists_advances]
    simp only [advances]
  | cons c rest ih =>
    rw [visit_success_iff_exists_advances]
    simp only [advances, List.any_eq_true, ih, path_cons_iff]
    constructor
    · rintro ⟨p, toP, q, edge, t, path, accepting⟩
      exact ⟨t, ⟨p, toP, q, edge, path⟩, accepting⟩
    · rintro ⟨t, ⟨p, toP, q, edge, path⟩, accepting⟩
      exact ⟨p, toP, q, edge, t, path, accepting⟩

end Arena

namespace Automaton

/-- The search through spots and the recursive search accept the same texts. -/
theorem accepts_eq_visit {nfa : Automaton} {f : Fragment} {a : Arena} (h : build f a = .ok nfa)
    (text : String) : nfa.accepts text = (nfa.arena.visit text.toList [] nfa.entry).success := by
  rw [Bool.eq_iff_iff, (Built.of_build h).accepts_iff, Arena.visit_success_iff]

theorem accepts_eq_visit_winding :
    ∃ nfa, build ⟨0, 3⟩ windingArena = .ok nfa ∧
      nfa.accepts "aé→" = (nfa.arena.visit "aé→".toList [] nfa.entry).success :=
  ⟨⟨windingArena, 0, 3⟩, by decide +kernel,
    accepts_eq_visit (f := ⟨0, 3⟩) (a := windingArena) (by decide +kernel) "aé→"⟩

end Automaton

end PatternAutomata
