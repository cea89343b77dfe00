import PatternAutomata.Proofs.Invariants
import PatternAutomata.Proofs.Linear
import PatternAutomata.Proofs.LiveStates

/-!
# Dangling edges

An edge is added without a look at the state that it leads to. When that state is not there the edge
dangles, until perhaps a later step adds the state. Scripts that name the boundaries of fragments
freely can leave such edges behind, and `Automaton.build` then fails, whether they can be reached or
not: among the edges that a script adds, only those that consume nothing can dangle
(`Arena.silentInvariant_charsBounded`), and the closures of all states follow these.

A script that uses nothing but fragments of its own never gets that far. `Build.Safe` says of a
construction that it succeeds in every arena without dangling edges that has enough states, and that
it leaves such an arena behind; it is put together along the steps of the script
(`Script.run_safe`). Whatever is looked up in an automaton that has been built is there
(`Automaton.Intact`).
-/

namespace PatternAutomata

open Arena Build

/-! ### When building fails -/

namespace Arena

variable {a : Arena}

/-- Some edge of a state leads to a state that is not there. -/
def Dangles (a : Arena) : Prop := ∃ id < a.size, ∃ t ∈ (a.state id).successors, a.size ≤ t

instance : Decidable a.Dangles :=
  inferInstanceAs (Decidable (∃ id < a.size, ∃ t ∈ (a.state id).successors, a.size ≤ t))

/-- No edge dangles when all targets are states. -/
lemma not_dangles_iff : ¬a.Dangles ↔ a.Bounded := by
  simp only [Dangles, Bounded, ClosedUnder, not_exists, not_and, Nat.not_le]
  exact Iff.rfl

/-- All edges that consume a character lead to states. -/
def CharsBounded (a : Arena) : Prop := ∀ s c, ∀ t ∈ (a.state s).targets (.char c), t < a.size

lemma charsBounded_empty : CharsBounded .empty := by
  intro s c t ht
  rw [state_of_size_le (Nat.zero_le s)] at ht
  cases ht

lemma silentInvariant_charsBounded : SilentInvariant CharsBounded where
  push accepting bounded s c t ht := by
    rw [State.targets, edges_push] at ht
    rw [size_push]
    exact (bounded s c t ht).trans (Nat.lt_succ_self _)
  connect t there bounded s c u hu := by
    rw [mem_targets_connect there] at hu
    rw [size_connect]
    rcases hu with old | ⟨-, label, -⟩
    · exact bounded s c u old
    · cases label
  mark accepting there bounded s c t ht := by
    rw [State.targets, edges_mark] at ht
    rw [size_mark]
    exact bounded s c t ht

/-- A new edge leads to a state that is new as well. -/
lemma edge_keeps_charsBounded (symbol : Symbol) : (Fragment.edge symbol).Keeps CharsBounded := by
  intro a b f run bounded s c t ht
  rw [Fragment.run_edge] at run
  cases run
  rw [mem_targets_connect (by simp), targets_widen] at ht
  rw [size_connect, size_widen]
  rcases ht with old | ⟨-, -, rfl⟩
  · exact Nat.lt_add_right 2 (bounded s c t old)
  · exact Nat.lt_succ_self _

/-- When only edges that consume nothing can dangle, closures without missing states show that none
does. -/
lemma bounded_of_closures (chars : a.CharsBounded) (distinct : a.LabelsDistinct)
    (closures : ∀ id < a.size, ∀ t ∈ a.closure id, t < a.size) : a.Bounded := by
  intro s hs t ht
  obtain ⟨symbol, target⟩ := (distinct s).exists_mem_targets ht
  cases symbol with
  | epsilon =>
    -- such an edge leads into the closure of its state, which holds no missing states
    have path : a.Path s [] t := .epsilon target (.refl t)
    exact closures s hs t ((mem_closure_iff (closures s hs)).2 path)
  | char c => exact chars s c t target

end Arena

namespace Automaton

variable {a : Arena} {f : Fragment}

/-- The exit of a fragment plays no part in whether it can be built. -/
lemma build_eq_error_iff_of_entry_eq {g : Fragment} {e : Error} (h : g.entry = f.entry) :
    build g a = .error e ↔ build f a = .error e := by
  unfold build
  rw [h]
  split
  · exact Iff.rfl
  · exact ⟨fun h => (nomatch h), fun h => (nomatch h)⟩

/-- Building fails with a state that is not there, or it succeeds. -/
lemma exists_build_eq_error_iff :
    (∃ id, a.size ≤ id ∧ build f a = .error (.missingState id)) ↔ ¬∃ nfa, build f a = .ok nfa := by
  have absent : ∀ ids id, a.missing? ids = some id → a.size ≤ id := fun ids id found => by
    simpa using List.find?_some found
  unfold build
  split
  · rename_i id found
    refine ⟨fun _ ⟨_, h⟩ => (nomatch h), fun _ => ⟨id, ?_, rfl⟩⟩
    rcases Option.or_eq_some_iff.1 found with first | ⟨-, second⟩
    · obtain ⟨_, -, missing⟩ := List.exists_of_findSome?_eq_some first
      exact absent _ _ missing
    · exact absent _ _ second
  · exact ⟨fun ⟨_, _, h⟩ => (nomatch h), fun h => absurd ⟨_, rfl⟩ h⟩

/-- When only edges that consume nothing can dangle, a fragment is built exactly when its entry is a
state and no edge dangles. -/
lemma exists_build_iff (chars : a.CharsBounded) (distinct : a.LabelsDistinct) :
    (∃ nfa, build f a = .ok nfa) ↔ f.entry < a.size ∧ a.Bounded := by
  constructor
  · rintro ⟨nfa, made⟩
    obtain ⟨-, closures, discovery⟩ := build_eq_ok_iff.1 made
    refine ⟨?_, bounded_of_closures chars distinct closures⟩
    exact discovery f.entry ((mem_discovery_iff discovery).2 .refl)
  · rintro ⟨entry, bounded⟩
    exact ⟨_, build_of_bounded bounded entry⟩

/-! ### What is looked up in an automaton -/

/-- The closures of all states, by their identifiers. -/
def closures (nfa : Automaton) : List (List StateId) := nfa.arena.ids.map nfa.arena.closure

/-- The numbers of all states, by their identifiers. -/
def numbers (nfa : Automaton) : List (Option StateNumber) := nfa.arena.ids.map nfa.number?

/-- Whatever is looked up while an automaton is built, searched and determinized is there. -/
structure Intact (nfa : Automaton) : Prop where
  /-- The walks that close states meet states only, -/
  closure_lt : ∀ id < nfa.size, ∀ t ∈ nfa.arena.closure id, t < nfa.size
  /-- and so does the walk that discovers them. -/
  order_lt : ∀ id ∈ nfa.order, id < nfa.size
  /-- The targets in a row are states. -/
  target_lt : ∀ id ∈ nfa.order, ∀ t ∈ (nfa.arena.state id).successors, t < nfa.size
  closure_listed : ∀ id < nfa.size, nfa.closures[id]? = some (nfa.arena.closure id)
  number_listed : ∀ id < nfa.size, nfa.numbers[id]? = some (nfa.number? id)
  /-- The search looks at states and cuts a text between two of its characters. -/
  spot : ∀ text, ∀ spot ∈ nfa.spots text,
    spot.state < nfa.size ∧ String.Pos.Raw.IsValid text ⟨spot.offset⟩
  /-- The numbers in a label have rows, -/
  row : ∀ label ∈ nfa.table.labels, ∀ n ∈ label, ∃ row, nfa.table.row? n = some row
  /-- and so have the numbers that a character leads to. -/
  target_row : ∀ c n, ∀ k ∈ nfa.table.targets c n, ∃ row, nfa.table.row? k = some row

/-- An automaton that is built is intact. -/
lemma Built.intact {nfa : Automaton} (built : nfa.Built) : nfa.Intact where
  closure_lt := built.closure_lt
  order_lt := built.order_lt
  target_lt id hid t ht := by
    have reach := (built.mem_order_iff.1 hid).tail ht
    exact built.lt_of_reach reach
  closure_listed id hid := by
    have hid : id < nfa.arena.size := hid
    simp [closures, Arena.ids, hid]
  number_listed id hid := by
    have hid : id < nfa.arena.size := hid
    simp [numbers, Arena.ids, hid]
  spot text spot visited := by
    -- the search has come along a path that spells the text up to the place
    have reached := (built.mem_spots_iff text spot).1 visited
    obtain ⟨u, v, split, offset, path⟩ := reached
    refine ⟨built.lt_of_reach path.reach, ?_⟩
    refine String.Pos.Raw.isValid_iff_exists_append.2 ⟨String.ofList u, String.ofList v, ?_, ?_⟩
    · rw [← String.ofList_append, split, String.ofList_toList]
    · simp [String.rawEndPos, offset, String.utf8ByteSize_ofList]
  row label discovered n hn := by
    obtain ⟨word, rfl, -⟩ := built.exists_word_of_mem_labels discovered
    obtain ⟨positive, small⟩ := (nfa.isLabel_labelAfter word).bounds n hn
    obtain ⟨id, number⟩ := exists_number_of_bounds positive small
    exact ⟨_, row?_of_number number⟩
  target_row c n k hk := by
    obtain ⟨id, number⟩ := exists_number_of_mem_targets hk
    obtain ⟨t, -, number'⟩ := (mem_targets_iff number).1 hk
    exact ⟨_, row?_of_number number'⟩

end Automaton

/-! ### Constructions that never fail -/

/-- The boundaries of a fragment are among the first states. -/
structure Fragment.Below (f : Fragment) (n : ℕ) : Prop where
  entry_lt : f.entry < n
  exit_lt : f.exit < n

lemma Fragment.Below.mono {f : Fragment} {m n : ℕ} (below : f.Below m) (h : m ≤ n) : f.Below n :=
  ⟨below.entry_lt.trans_le h, below.exit_lt.trans_le h⟩

namespace Build

variable {α β : Type} {make : Build α} {next : Build β} {n : ℕ} {within : α → ℕ → Prop}
  {within' : β → ℕ → Prop} {s t : ℕ} {symbol : Symbol} {accepting : Bool}

/-- In every arena without dangling edges that has at least `n` states a construction succeeds. It
takes no state away and leaves no edge dangling, and its result stays within the states that there
are then. -/
def Safe (make : Build α) (n : ℕ) (within : α → ℕ → Prop) : Prop :=
  ∀ a : Arena, a.Bounded → n ≤ a.size → ∃ r b, make.run a = .ok (r, b) ∧ b.Bounded ∧
    a.size ≤ b.size ∧ within r b.size

lemma safe_pure {r : α} (h : ∀ m, n ≤ m → within r m) : (pure r : Build α).Safe n within :=
  fun a bounded le => ⟨r, a, rfl, bounded, le_rfl, h a.size le⟩

lemma Safe.bind {next : α → Build β} (first : make.Safe n within)
    (second : ∀ r m, n ≤ m → within r m → (next r).Safe m within') :
    (make >>= next).Safe n within' := by
  intro a bounded le
  obtain ⟨r, b, run, bounded, grown, hr⟩ := first a bounded le
  obtain ⟨q, c, run', bounded, grown', hq⟩ :=
    second r b.size (le.trans grown) hr b bounded le_rfl
  exact ⟨q, c, (run_bind_of_run run).trans run', bounded, grown.trans grown', hq⟩

/-- A new state has no edges. -/
lemma safe_addState {next : StateId → Build β}
    (h : ∀ id : ℕ, n ≤ id → (next id).Safe (id + 1) within') :
    (addState accepting >>= next).Safe n within' := by
  intro a bounded le
  have bounded' : (a.push (.new accepting)).Bounded := by
    intro s hs t ht
    rw [successors_push] at ht
    -- the new state has no edges, so the edge is one of an old state
    have old : s < a.size := by
      by_contra new
      rw [successors_of_size_le (Nat.not_lt.1 new)] at ht
      cases ht
    rw [Set.mem_ofPred_eq, size_push]
    exact (bounded s old t ht).trans (Nat.lt_succ_self _)
  obtain ⟨q, c, run, bounded'', grown, hq⟩ := h a.size le _ bounded' (size_push a _).ge
  rw [size_push] at grown
  exact ⟨q, c, (run_bind_of_run (run_addState accepting a)).trans run, bounded'',
    (Nat.le_succ _).trans grown, hq⟩

/-- New boundaries are states of the arena. -/
lemma safe_boundaries {next : StateId → StateId → Build β}
    (h : ∀ (f : Fragment) (m : ℕ), n ≤ m → f.Below m → (next f.entry f.exit).Safe m within') :
    (do next (← addState false) (← addState true)).Safe n within' :=
  safe_addState fun entry le => safe_addState fun exit lt =>
    h ⟨entry, exit⟩ (exit + 1) ((le.trans (Nat.le_of_succ_le lt)).trans (Nat.le_succ exit))
      ⟨Nat.lt_succ_of_lt lt, Nat.lt_succ_self exit⟩

/-- An edge between two states does not dangle. -/
lemma safe_connect (hs : s < n) (ht : t < n) (h : next.Safe n within') :
    (do connect s symbol t; next).Safe n within' := by
  intro a bounded le
  have there : s < a.size := hs.trans_le le
  have bounded' : (a.connect s symbol t).Bounded := by
    intro r hr u hu
    rw [Set.mem_ofPred_eq, size_connect] at hr ⊢
    rcases (mem_successors_connect there).1 hu with old | ⟨-, rfl⟩
    · exact bounded r hr u old
    · exact ht.trans_le le
  obtain ⟨q, c, run, bounded'', grown, hq⟩ := h _ bounded' (by rwa [size_connect])
  rw [size_connect] at grown
  exact ⟨q, c, (run_bind_of_run (run_connect there)).trans run, bounded'', grown, hq⟩

/-- A change of acceptance leaves all edges as they are. -/
lemma safe_setAccepting (hs : s < n) (h : next.Safe n within') :
    (do setAccepting s accepting; next).Safe n within' := by
  intro a bounded le
  have there : s < a.size := hs.trans_le le
  have bounded' : (a.mark s accepting).Bounded := by
    intro r hr u hu
    rw [Set.mem_ofPred_eq, size_mark] at hr ⊢
    rw [successors_mark] at hu
    exact bounded r hr u hu
  obtain ⟨q, c, run, bounded'', grown, hq⟩ := h _ bounded' (by rwa [size_mark])
  rw [size_mark] at grown
  exact ⟨q, c, (run_bind_of_run (run_setAccepting there)).trans run, bounded'', grown, hq⟩

end Build

namespace Fragment

variable {f g : Fragment} {gs : List Fragment} {n : ℕ}

lemma edge_safe (symbol : Symbol) : (edge symbol).Safe n Below :=
  safe_boundaries fun _ _ _ new => safe_connect new.entry_lt new.exit_lt <|
    safe_pure fun _ hm => new.mono hm

lemma concat_safe (hf : f.Below n) (hg : g.Below n) : (f.concat g).Safe n Below :=
  safe_setAccepting hf.exit_lt <| safe_setAccepting hg.exit_lt <|
    safe_connect hf.exit_lt hg.entry_lt <| safe_pure fun _ hm =>
      Below.mono ⟨hf.entry_lt, hg.exit_lt⟩ hm

lemma union_safe (hf : f.Below n) (hg : g.Below n) : (f.union g).Safe n Below := by
  refine safe_boundaries fun h m hm new => ?_
  have hf := hf.mono hm
  have hg := hg.mono hm
  exact safe_connect new.entry_lt hf.entry_lt <| safe_connect new.entry_lt hg.entry_lt <|
    safe_setAccepting hf.exit_lt <| safe_setAccepting hg.exit_lt <|
      safe_connect hf.exit_lt new.exit_lt <| safe_connect hg.exit_lt new.exit_lt <|
        safe_pure fun _ hm => new.mono hm

lemma star_safe (hf : f.Below n) : f.star.Safe n Below :=
  safe_connect hf.entry_lt hf.exit_lt <| safe_connect hf.exit_lt hf.entry_lt <|
    safe_pure fun _ hm => hf.mono hm

lemma freshStar_safe (hf : f.Below n) : f.freshStar.Safe n Below := by
  refine safe_boundaries fun h m hm new => ?_
  have hf := hf.mono hm
  exact safe_connect new.entry_lt hf.entry_lt <| safe_connect new.entry_lt new.exit_lt <|
    safe_setAccepting hf.exit_lt <| safe_connect hf.exit_lt new.exit_lt <|
      safe_connect new.exit_lt hf.entry_lt <| safe_pure fun _ hm => new.mono hm

lemma plus_safe (hf : f.Below n) : f.plus.Safe n Below :=
  safe_connect hf.exit_lt hf.entry_lt <| safe_pure fun _ hm => hf.mono hm

lemma optional_safe (hf : f.Below n) : f.optional.Safe n Below :=
  safe_connect hf.entry_lt hf.exit_lt <| safe_pure fun _ hm => hf.mono hm

/-- A combinator of two fragments that is safe can be folded over several. -/
lemma foldlM_safe {op : Fragment → Fragment → Build Fragment}
    (each : ∀ {f g n}, f.Below n → g.Below n → (op f g).Safe n Below) (hf : f.Below n)
    (hgs : ∀ g ∈ gs, g.Below n) : (gs.foldlM op f).Safe n Below := by
  induction gs generalizing f n with
  | nil => exact safe_pure fun _ hm => hf.mono hm
  | cons g gs ih =>
    rw [List.forall_mem_cons] at hgs
    rw [List.foldlM_cons]
    refine (each hf hgs.1).bind fun h m hm below => ih below fun g hg => ?_
    exact (hgs.2 g hg).mono hm

end Fragment

/-! ### Scripts that use their own fragments -/

namespace Step

variable {made : Array Fragment} {n i j : ℕ} {is : List ℕ}

/-- A fragment that has been made is found. -/
lemma lookup_safe (below : ∀ f ∈ made, f.Below n) (h : i < made.size) :
    (lookup made i).Safe n Fragment.Below := by
  rw [lookup, Array.getElem?_eq_getElem h]
  exact safe_pure fun _ hm => (below _ (Array.getElem_mem h)).mono hm

/-- Fragments that have been made are found. -/
lemma lookups_safe (below : ∀ f ∈ made, f.Below n) (h : ∀ i ∈ is, i < made.size) :
    (is.mapM (lookup made)).Safe n fun fs m => ∀ f ∈ fs, f.Below m := by
  induction is generalizing n with
  | nil => exact safe_pure fun _ _ _ hf => nomatch hf
  | cons i is ih =>
    rw [List.forall_mem_cons] at h
    rw [List.mapM_cons]
    refine (lookup_safe below h.1).bind fun f m hm hf => ?_
    have later : ∀ f ∈ made, f.Below m := fun f mem => (below f mem).mono hm
    refine (ih later h.2).bind fun fs k hk hfs => safe_pure fun l hl => ?_
    exact List.forall_mem_cons.2 ⟨(hf.mono hk).mono hl, fun g hg => (hfs g hg).mono hl⟩

/-- A combinator of one fragment is safe when the fragment has been made. -/
lemma single_safe {op : Fragment → Build Fragment} (below : ∀ f ∈ made, f.Below n)
    (h : ∀ j ∈ [i], j < made.size) (each : ∀ {f n}, f.Below n → (op f).Safe n Fragment.Below) :
    (do op (← lookup made i)).Safe n Fragment.Below :=
  (lookup_safe below (h i List.mem_cons_self)).bind fun _ _ _ hf => each hf

/-- A combinator of two fragments is safe when both have been made. -/
lemma pair_safe {op : Fragment → Fragment → Build Fragment} (below : ∀ f ∈ made, f.Below n)
    (h : ∀ k ∈ [i, j], k < made.size)
    (each : ∀ {f g n}, f.Below n → g.Below n → (op f g).Safe n Fragment.Below) :
    (do op (← lookup made i) (← lookup made j)).Safe n Fragment.Below := by
  rw [List.forall_mem_cons, List.forall_mem_singleton] at h
  refine (lookup_safe below h.1).bind fun f m hm hf => ?_
  have later : ∀ f ∈ made, f.Below m := fun f mem => (below f mem).mono hm
  exact (lookup_safe later h.2).bind fun g k hk hg => each (hf.mono hk) hg

/-- A combinator of several fragments is safe when all of them have been made. -/
lemma several_safe {op : Fragment → Fragment → Build Fragment} (below : ∀ f ∈ made, f.Below n)
    (h : ∀ j ∈ i :: is, j < made.size)
    (each : ∀ {f g n}, f.Below n → g.Below n → (op f g).Safe n Fragment.Below) :
    (do
      let f ← lookup made i
      let fs ← is.mapM (lookup made)
      fs.foldlM op f).Safe n Fragment.Below := by
  rw [List.forall_mem_cons] at h
  refine (lookup_safe below h.1).bind fun f m hm hf => ?_
  have later : ∀ f ∈ made, f.Below m := fun f mem => (below f mem).mono hm
  exact (lookups_safe later h.2).bind fun fs k hk hfs => Fragment.foldlM_safe each (hf.mono hk) hfs

/-- A step that uses fragments that have been made makes another one. -/
lemma run_safe (step : Step) (below : ∀ f ∈ made, f.Below n)
    (earlier : ∀ i ∈ step.operands, i < made.size) (returned : step.invents = false) :
    (step.run made).Safe n Fragment.Below := by
  cases step with
  | char c => exact Fragment.edge_safe (.char c)
  | epsilon => exact Fragment.edge_safe .epsilon
  | concat first second => exact pair_safe below earlier Fragment.concat_safe
  | concatAll first others => exact several_safe below earlier Fragment.concat_safe
  | union first second => exact pair_safe below earlier Fragment.union_safe
  | unionAll first others => exact several_safe below earlier Fragment.union_safe
  | star operand => exact single_safe below earlier Fragment.star_safe
  | freshStar operand => exact single_safe below earlier Fragment.freshStar_safe
  | plus operand => exact single_safe below earlier Fragment.plus_safe
  | optional operand => exact single_safe below earlier Fragment.optional_safe
  | fragment f => cases returned

end Step

namespace Script

/-- The steps of a script use fragments that earlier steps have made, as often as they like. -/
structure SelfContained (s : Script) : Prop where
  earlier : ∀ n (h : n < s.length), ∀ i ∈ s[n].operands, i < n
  returned : ∀ step ∈ s, step.invents = false

instance (s : Script) : Decidable s.SelfContained :=
  letI : Decidable (∀ n (h : n < s.length), ∀ i ∈ s[n].operands, i < n) := inferInstance
  decidable_of_iff (_ ∧ ∀ step ∈ s, step.invents = false)
    ⟨fun ⟨earlier, returned⟩ => ⟨earlier, returned⟩, fun h => ⟨h.earlier, h.returned⟩⟩

/-- The steps of a script behind others succeed when they use fragments that have been made before
them. -/
theorem run_safe {s : Script} {made : Array Fragment} {n : ℕ} (below : ∀ f ∈ made, f.Below n)
    (earlier : ∀ k (h : k < s.length), ∀ i ∈ s[k].operands, i < made.size + k)
    (returned : ∀ step ∈ s, step.invents = false) :
    (run made s).Safe n fun made' m =>
      made'.size = made.size + s.length ∧ ∀ f ∈ made', f.Below m := by
  induction s generalizing made n with
  | nil => exact safe_pure fun m hm => ⟨rfl, fun f mem => (below f mem).mono hm⟩
  | cons step s ih =>
    rw [List.forall_mem_cons] at returned
    have first := step.run_safe below (earlier 0 (Nat.zero_lt_succ _)) returned.1
    refine first.bind fun f m hm hf => ?_
    have later : ∀ g ∈ made.push f, g.Below m := by
      intro g mem
      rcases Array.mem_push.1 mem with old | rfl
      · exact (below g old).mono hm
      · exact hf
    -- the other steps may use one fragment more and stand one place further on
    have rest := ih later (fun k hk i hi => ?_) returned.2
    · rw [Array.size_push] at rest
      rw [List.length_cons, Nat.add_comm s.length, ← Nat.add_assoc]
      exact rest
    · rw [Array.size_push, Nat.add_assoc, Nat.add_comm 1 k]
      exact earlier (k + 1) (Nat.succ_lt_succ hk) i hi

end Script

/-! ### What scripts leave behind -/

/-- A fragment cannot be built when its entry is not a state or some edge of the arena dangles,
wherever it is, and its exit does not matter. When every fragment that a script uses is one of its
own, all of its steps succeed and all of its fragments can be built. In an automaton that has been
built, whatever is looked up is there. -/
theorem build_fails_iff_dangles :
    (∀ (s : Script) (made : Array Fragment) (a : Arena),
      (Script.run #[] s).run .empty = .ok (made, a) → ∀ f : Fragment,
        ((∃ id, a.size ≤ id ∧ Automaton.build f a = .error (.missingState id)) ↔
          a.size ≤ f.entry ∨ a.Dangles) ∧
        ((∃ nfa, Automaton.build f a = .ok nfa ∧ nfa.Intact) ↔
          ¬(a.size ≤ f.entry ∨ a.Dangles)) ∧
        ∀ exit e, Automaton.build ⟨f.entry, exit⟩ a = .error e ↔
          Automaton.build f a = .error e) ∧
    ∀ s : Script, s.SelfContained →
      ∃ made a, (Script.run #[] s).run .empty = .ok (made, a) ∧ made.size = s.length ∧
        ∀ f ∈ made, ∃ nfa, Automaton.build f a = .ok nfa ∧ nfa.Intact := by
  refine ⟨fun s made a run f => ?_, fun s contained => ?_⟩
  · have chars := Script.run_keeps silentInvariant_charsBounded edge_keeps_charsBounded #[] s run
      charsBounded_empty
    have distinct := invariant_labelsDistinct.of_run run
    have built := Automaton.exists_build_iff (f := f) chars distinct
    rw [← not_dangles_iff, ← Nat.not_le, ← not_or] at built
    refine ⟨?_, ?_, fun exit e => Automaton.build_eq_error_iff_of_entry_eq rfl⟩
    · rw [Automaton.exists_build_eq_error_iff, built, not_not]
    · rw [← built]
      refine exists_congr fun nfa => and_iff_left_of_imp fun h => ?_
      exact (Automaton.Built.of_build h).intact
  · have below : ∀ f ∈ #[], Fragment.Below f 0 := by simp
    obtain ⟨made, a, run, bounded, -, size, within⟩ :=
      Script.run_safe below (by simpa using contained.earlier) contained.returned .empty
        bounded_empty le_rfl
    refine ⟨made, a, run, by simpa using size, fun f hf => ?_⟩
    have h := Automaton.build_of_bounded bounded (within f hf).entry_lt
    exact ⟨_, h, (Automaton.Built.of_build h).intact⟩

/-- A script that adds an edge to a state before it adds the state. -/
def Script.skipsAhead : Script := [.char 'a', .fragment ⟨0, 2⟩, .optional 1, .char 'b']

theorem build_fails_iff_dangles_skipsAhead :
    (∃ made a, (Script.run #[] (Script.skipsAhead.take 3)).run .empty = .ok (made, a) ∧
      ∃ id, a.size ≤ id ∧ Automaton.build ⟨0, 1⟩ a = .error (.missingState id)) ∧
    (∃ made a, (Script.run #[] Script.skipsAhead).run .empty = .ok (made, a) ∧
      ∃ nfa, Automaton.build ⟨0, 1⟩ a = .ok nfa ∧ nfa.Intact) ∧
    Script.SelfContained [.char 'a', .star 0, .concat 0 1] ∧
    ∃ made a, (Script.run #[] [.char 'a', .star 0, .concat 0 1]).run .empty = .ok (made, a) ∧
      made.size = 3 ∧ ∀ f ∈ made, ∃ nfa, Automaton.build f a = .ok nfa ∧ nfa.Intact := by
  have contained : Script.SelfContained [.char 'a', .star 0, .concat 0 1] := by decide
  refine ⟨⟨_, _, rfl, ?_⟩, ⟨_, _, rfl, ?_⟩, contained, build_fails_iff_dangles.2 _ contained⟩
  · exact (build_fails_iff_dangles.1 (Script.skipsAhead.take 3) _ _ rfl ⟨0, 1⟩).1.2 (by decide)
  · exact (build_fails_iff_dangles.1 Script.skipsAhead _ _ rfl ⟨0, 1⟩).2.1.2 (by decide)

end PatternAutomata
