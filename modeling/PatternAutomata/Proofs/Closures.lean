import PatternAutomata.Proofs.Tabulation

/-!
# Closures are exact

The closure of a state begins with the state, lists no state twice and holds exactly the states that
can be reached without consuming anything. The closures in the rows of the numbered table are exact
in the same sense (`ExactClosures`), with respect to the same edges seen as edges between numbers,
although the table does not show these edges. For translating a closure into numbers keeps its order
and loses no member: whatever can be reached from a state that can be reached has a number.

That the closure of a member is part of the closure follows from what the closures hold
(`ExactClosures.of_mem_iff`).
-/

namespace PatternAutomata

/-- The lists that belong to some nodes hold what can be reached from each of them along edges. -/
structure ExactClosures (edge : ℕ → ℕ → Prop) (nodes : Set ℕ) (closure : ℕ → List ℕ) : Prop where
  head : ∀ n ∈ nodes, (closure n).head? = some n
  nodup : ∀ n ∈ nodes, (closure n).Nodup
  mem_iff : ∀ n ∈ nodes, ∀ m, m ∈ closure n ↔ Relation.ReflTransGen edge n m
  mem_nodes : ∀ n ∈ nodes, ∀ m ∈ closure n, m ∈ nodes
  /-- The closure of a member is part of the closure. -/
  subset : ∀ n ∈ nodes, ∀ m ∈ closure n, closure m ⊆ closure n

/-- Lists of what can be reached are transitively closed. -/
lemma ExactClosures.of_mem_iff {edge : ℕ → ℕ → Prop} {nodes : Set ℕ} {closure : ℕ → List ℕ}
    (head : ∀ n ∈ nodes, (closure n).head? = some n) (nodup : ∀ n ∈ nodes, (closure n).Nodup)
    (mem_iff : ∀ n ∈ nodes, ∀ m, m ∈ closure n ↔ Relation.ReflTransGen edge n m)
    (mem_nodes : ∀ n ∈ nodes, ∀ m ∈ closure n, m ∈ nodes) :
    ExactClosures edge nodes closure where
  head := head
  nodup := nodup
  mem_iff := mem_iff
  mem_nodes := mem_nodes
  subset n node m mem k hk := by
    have below := (mem_iff n node m).1 mem
    have further := (mem_iff m (mem_nodes n node m mem) k).1 hk
    exact (mem_iff n node k).2 (below.trans further)

/-- An edge that consumes nothing leads from a state to another one. -/
def Arena.Silent (a : Arena) (s t : StateId) : Prop := t ∈ (a.state s).targets .epsilon

namespace Automaton

/-- An edge that consumes nothing leads from the state with a number to the one with another. -/
def SilentNumbers (nfa : Automaton) (n m : StateNumber) : Prop :=
  ∃ s t, nfa.number? s = some n ∧ nfa.number? t = some m ∧ nfa.arena.Silent s t

variable {nfa : Automaton} {id : StateId} {n m : ℕ}

namespace Built

/-- The closures of the states are exact. -/
lemma exactClosures (built : nfa.Built) :
    ExactClosures nfa.arena.Silent {id | id < nfa.size} nfa.arena.closure := by
  refine .of_mem_iff (fun id _ => head?_preorder _ _ id) (fun id _ => nodup_preorder _ _ [id])
    (fun id small t => ?_) built.closure_lt
  exact (built.mem_closure_iff small).trans Arena.path_nil_iff

/-- Numbers are connected as the states that have them. -/
lemma reflTransGen_silentNumbers_iff (built : nfa.Built) (number : nfa.number? id = some n) :
    Relation.ReflTransGen nfa.SilentNumbers n m ↔
      ∃ t, nfa.arena.Path id [] t ∧ nfa.number? t = some m := by
  constructor
  · intro reaches
    induction reaches with
    | refl => exact ⟨id, .refl id, number⟩
    | tail _ edge ih =>
      obtain ⟨t, path, number'⟩ := ih
      obtain ⟨s, u, source, target, edge⟩ := edge
      obtain rfl := number?_inj number' source
      exact ⟨u, path.append (.epsilon edge (.refl u)), target⟩
  · rintro ⟨t, path, number'⟩
    rw [Arena.path_nil_iff] at path
    induction path generalizing m with
    | refl =>
      rw [number, Option.some_inj] at number'
      exact number' ▸ .refl
    | @tail s t path edge ih =>
      have reach := (built.reach_of_number number).trans (Arena.path_nil_iff.2 path).reach
      obtain ⟨k, source⟩ := built.exists_number_iff.2 reach
      exact (ih source).tail ⟨s, t, source, number', edge⟩

/-- The closure of a row lists the numbers of the closure of its state. -/
lemma map_some_closure (built : nfa.Built) (number : nfa.number? id = some n) :
    (nfa.table.closure n).map some = (nfa.arena.closure id).map nfa.number? := by
  obtain ⟨row, there, -, closure⟩ := built.exists_row number
  rw [NumberedTable.closure, there, closure]

/-- The closures in the rows of the table are exact. -/
lemma exactClosures_table (built : nfa.Built) :
    ExactClosures nfa.SilentNumbers (Set.Icc 1 nfa.table.size) nfa.table.closure := by
  refine .of_mem_iff (fun n row => ?head) (fun n row => ?nodup) (fun n row m => ?mem_iff)
    (fun n row m mem => ?mem_nodes) <;> obtain ⟨id, number⟩ := exists_number_of_bounds row.1 row.2
  case head =>
    have translated := congrArg List.head? (built.map_some_closure number)
    have head : (nfa.arena.closure id).head? = some id := head?_preorder _ _ id
    rw [List.head?_map, List.head?_map, head, Option.map_some, number] at translated
    simpa using translated
  case nodup =>
    rw [closure_of_number number]
    exact nodup_filterMap_number? (nodup_preorder _ _ [id])
  case mem_iff =>
    rw [built.mem_closure_number_iff number, built.reflTransGen_silentNumbers_iff number]
  case mem_nodes =>
    obtain ⟨t, -, number'⟩ := (built.mem_closure_number_iff number).1 mem
    exact number?_bounds number'

end Built

/-- The closures of all states of an automaton that is built are exact, those of states that cannot
be reached included. The closures in the rows of its table are exact, too: they list the numbers of
the closures of the states, each at the place of its state. -/
theorem exactClosures_of_build {f : Fragment} {a : Arena} (h : build f a = .ok nfa) :
    ExactClosures nfa.arena.Silent {id | id < nfa.size} nfa.arena.closure ∧
      ExactClosures nfa.SilentNumbers (Set.Icc 1 nfa.table.size) nfa.table.closure ∧
      ∀ id n, nfa.number? id = some n →
        (nfa.table.closure n).map some = (nfa.arena.closure id).map nfa.number? :=
  ⟨(Built.of_build h).exactClosures, (Built.of_build h).exactClosures_table,
    fun _ _ => (Built.of_build h).map_some_closure⟩

/-- An arena with two cycles of edges that consume nothing: one that can be reached from the entry,
and one that cannot and leads to the first. -/
def doublyCyclicArena : Arena :=
  ⟨#[⟨[(.char 'a', [2])], false⟩, ⟨[(.epsilon, [3, 2])], false⟩, ⟨[(.epsilon, [1])], true⟩,
    ⟨[], false⟩, ⟨[(.epsilon, [5])], false⟩, ⟨[(.epsilon, [4, 1])], false⟩]⟩

theorem exactClosures_of_build_doublyCyclic :
    ∃ nfa, build ⟨0, 2⟩ doublyCyclicArena = .ok nfa ∧
      (∀ t, t ∈ [4, 5, 1, 3, 2] ↔ Relation.ReflTransGen nfa.arena.Silent 4 t) ∧
      ∀ m, m ∈ [2, 3, 4] ↔ Relation.ReflTransGen nfa.SilentNumbers 2 m := by
  have h : build ⟨0, 2⟩ doublyCyclicArena = .ok ⟨doublyCyclicArena, 0, 2⟩ := by decide +kernel
  obtain ⟨states, numbers, -⟩ := exactClosures_of_build h
  have states := states.mem_iff 4 (by decide)
  have numbers := numbers.mem_iff 2 ⟨by decide, by decide +kernel⟩
  have closure : doublyCyclicArena.closure 4 = [4, 5, 1, 3, 2] := by decide +kernel
  have row : (table ⟨doublyCyclicArena, 0, 2⟩).closure 2 = [2, 3, 4] := by decide +kernel
  rw [closure] at states
  rw [row] at numbers
  exact ⟨_, h, states, numbers⟩

end Automaton

end PatternAutomata
