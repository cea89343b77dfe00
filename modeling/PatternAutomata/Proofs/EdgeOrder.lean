import PatternAutomata.Proofs.Invariants

/-!
# The order of edges

The edges of a state are kept in the order in which they were added, since states are numbered in
that order, and yet two states agree when they differ in it alone. Both follow from what a state
lists when edges have been added to it one after the other (`State.Lists`): its labels, and behind
each label its targets, each of them where it was added first. Adding an edge keeps this
(`State.Lists.connect`), and so adding an edge again changes nothing.

States are compared by the numbers of their labels and targets, and by whether those of one state
are among those of the other (`State.Lists.agrees_iff`). As nothing is listed twice, this is enough
for the same labels and targets (`length_eq_and_subset_iff`); and as each label stands before some
target, the labels are known from the edges that were added.
-/

namespace PatternAutomata

/-! ### Lists as sets and as maps -/

section Lists

variable {α β : Type}

/-- Among lists without repetitions, a list of the same length that has all the members of another
one has no others. -/
lemma length_eq_and_subset_iff {xs ys : List α} (hx : xs.Nodup) (hy : ys.Nodup) :
    xs.length = ys.length ∧ xs ⊆ ys ↔ ∀ a, a ∈ xs ↔ a ∈ ys := by
  constructor
  · rintro ⟨length, subset⟩ a
    exact ((List.subperm_of_subset hx subset).perm_of_length_le length.ge).mem_iff
  · intro same
    exact ⟨((List.perm_ext_iff_of_nodup hx hy).2 same).length_eq, fun a => (same a).1⟩

variable [DecidableEq α]

/-- Only the first occurrences are kept, so a member behind the others is kept if it is new. -/
lemma eraseDups_append_singleton (xs : List α) (a : α) :
    (xs ++ [a]).eraseDups = if a ∈ xs then xs.eraseDups else xs.eraseDups ++ [a] := by
  rw [List.eraseDups_append]
  by_cases known : a ∈ xs <;> simp [List.removeAll, List.eraseDups_cons, known]

/-- No member is kept twice. -/
lemma nodup_eraseDups (xs : List α) : xs.eraseDups.Nodup := by
  induction xs using List.reverseRecOn with
  | nil => simp
  | append_singleton xs a ih =>
    rw [eraseDups_append_singleton]
    split
    · exact ih
    · rename_i new
      refine List.nodup_append.2 ⟨ih, List.nodup_singleton a, ?_⟩
      rintro b old c fresh rfl
      rw [List.mem_singleton] at fresh
      exact new (fresh ▸ List.mem_eraseDups.1 old)

namespace Unordered

/-- Lists without repetitions are the same set when they have the same members. -/
lemma sameSet_iff {xs ys : List α} (hx : xs.Nodup) (hy : ys.Nodup) :
    sameSet xs ys = true ↔ ∀ a, a ∈ xs ↔ a ∈ ys := by
  rw [← length_eq_and_subset_iff hx hy]
  simp [sameSet, List.subset_def]

/-- A list is the same map as another one when there are as many entries and each key has a value
there that is the same. -/
lemma sameMap_iff {same : β → β → Bool} {xs ys : List (α × β)}
    (distinct : (ys.map Prod.fst).Nodup) :
    sameMap same xs ys = true ↔ xs.length = ys.length ∧
      ∀ k v, (k, v) ∈ xs → ∃ w, (k, w) ∈ ys ∧ same v w = true := by
  simp only [sameMap, Bool.and_eq_true, beq_iff_eq, List.all_eq_true, Prod.forall]
  refine and_congr_right fun _ => forall₃_congr fun k v _ => ?_
  simp only [← lookup_eq_some_iff_mem distinct]
  cases ys.lookup k <;> simp

end Unordered

end Lists

/-! ### States with the edges that were added -/

namespace State

/-- The targets of a label among some edges, in the order of the edges. -/
def targetsAmong (added : List (Symbol × StateId)) (symbol : Symbol) : List StateId :=
  (added.filter fun edge => edge.1 = symbol).map Prod.snd

/-- A state lists the edges that were added to it, each where it was added first. -/
structure Lists (s : State) (added : List (Symbol × StateId)) : Prop where
  /-- A label leads to the targets that were added for it, each once. -/
  targets : ∀ symbol, s.targets symbol = (targetsAmong added symbol).eraseDups
  /-- The labels are those that were used, each once. -/
  labels : s.edges.map Prod.fst = (added.map Prod.fst).eraseDups
  /-- Behind a label stand all the targets that it leads to. -/
  edges : ∀ edge ∈ s.edges, edge.2 = s.targets edge.1

variable {s t : State} {added : List (Symbol × StateId)}

lemma targetsAmong_append_singleton (added : List (Symbol × StateId)) (symbol label : Symbol)
    (id : StateId) : targetsAmong (added ++ [(symbol, id)]) label =
      if label = symbol then targetsAmong added label ++ [id] else targetsAmong added label := by
  by_cases same : symbol = label <;> simp [targetsAmong, same, eq_comm]

lemma mem_targetsAmong {symbol : Symbol} {id : StateId} :
    id ∈ targetsAmong added symbol ↔ (symbol, id) ∈ added := by
  simp [targetsAmong]

lemma lists_new (accepting : Bool) : (new accepting).Lists [] where
  targets _ := rfl
  labels := rfl
  edges _ mem := nomatch mem

namespace Lists

lemma labelsDistinct (lists : s.Lists added) : s.LabelsDistinct := by
  rw [LabelsDistinct, lists.labels]
  exact nodup_eraseDups _

/-- An edge that is added is listed behind the others, unless it is listed already. -/
lemma connect (lists : s.Lists added) (symbol : Symbol) (id : StateId) :
    (s.connect symbol id).Lists (added ++ [(symbol, id)]) := by
  have distinct : (s.connect symbol id).LabelsDistinct :=
    nodup_map_fst_addTarget symbol id lists.labelsDistinct
  refine ⟨fun label => ?_, ?_, fun edge mem => (distinct.targets_eq mem).symm⟩
  · rw [targets_connect, targetsAmong_append_singleton]
    by_cases same : label = symbol
    · subst same
      simp only [lists.targets, List.mem_eraseDups, true_and, if_true, eraseDups_append_singleton,
        ite_not]
    · simp only [same, false_and, if_false, lists.targets]
  · rw [State.connect, map_fst_addTarget, lists.labels, List.map_append, List.map_singleton,
      eraseDups_append_singleton]
    simp only [List.mem_eraseDups]

end Lists

lemma ofEdges_append_singleton (accepting : Bool) (added : List (Symbol × StateId))
    (edge : Symbol × StateId) : ofEdges accepting (added ++ [edge]) =
      (ofEdges accepting added).connect edge.1 edge.2 := by
  rw [ofEdges, List.foldl_append]
  rfl

/-- A state that is made by adding edges lists them. -/
lemma lists_ofEdges (accepting : Bool) (added : List (Symbol × StateId)) :
    (ofEdges accepting added).Lists added := by
  induction added using List.reverseRecOn with
  | nil => exact lists_new accepting
  | append_singleton added edge ih =>
    rw [ofEdges_append_singleton]
    exact ih.connect edge.1 edge.2

lemma accepting_ofEdges (accepting : Bool) (added : List (Symbol × StateId)) :
    (ofEdges accepting added).accepting = accepting := by
  induction added using List.reverseRecOn with
  | nil => rfl
  | append_singleton added edge ih =>
    rw [ofEdges_append_singleton, accepting_connect, ih]

namespace Lists

/-- A label is listed with its targets when it was used, and in no other way. -/
lemma mem_edges_iff (lists : s.Lists added) {symbol : Symbol} {ids : List StateId} :
    (symbol, ids) ∈ s.edges ↔ symbol ∈ added.map Prod.fst ∧ ids = s.targets symbol := by
  have used : symbol ∈ added.map Prod.fst ↔ symbol ∈ s.edges.map Prod.fst := by
    rw [lists.labels, List.mem_eraseDups]
  rw [used]
  constructor
  · intro mem
    exact ⟨List.mem_map_of_mem mem, lists.edges _ mem⟩
  · rintro ⟨mem, rfl⟩
    obtain ⟨edge, listed, rfl⟩ := List.mem_map.1 mem
    rwa [← lists.edges edge listed]

lemma mem_targets_iff (lists : s.Lists added) {symbol : Symbol} {id : StateId} :
    id ∈ s.targets symbol ↔ (symbol, id) ∈ added := by
  rw [lists.targets, List.mem_eraseDups, mem_targetsAmong]

lemma nodup_targets (lists : s.Lists added) (symbol : Symbol) : (s.targets symbol).Nodup := by
  rw [lists.targets]
  exact nodup_eraseDups _

variable {es fs : List (Symbol × StateId)}

/-- The targets of a label are the same set when the label was used with the same targets. -/
lemma sameSet_targets_iff (hs : s.Lists es) (ht : t.Lists fs) (symbol : Symbol) :
    Unordered.sameSet (s.targets symbol) (t.targets symbol) = true ↔
      ∀ id, (symbol, id) ∈ es ↔ (symbol, id) ∈ fs := by
  rw [Unordered.sameSet_iff (hs.nodup_targets symbol) (ht.nodup_targets symbol)]
  simp only [hs.mem_targets_iff, ht.mem_targets_iff]

/-- The same labels were used when as many are listed and those of one state are among those of the
other. -/
lemma length_eq_and_used_iff (hs : s.Lists es) (ht : t.Lists fs) :
    s.edges.length = t.edges.length ∧ (∀ symbol ∈ es.map Prod.fst, symbol ∈ fs.map Prod.fst) ↔
      ∀ symbol, symbol ∈ es.map Prod.fst ↔ symbol ∈ fs.map Prod.fst := by
  have labels := length_eq_and_subset_iff hs.labelsDistinct ht.labelsDistinct
  simpa only [hs.labels, ht.labels, List.subset_def, List.mem_eraseDups,
    ← List.length_map Prod.fst] using labels

/-- States are compared label by label. -/
lemma agrees_iff_used (hs : s.Lists es) (ht : t.Lists fs) :
    s.agrees t = true ↔ s.accepting = t.accepting ∧ s.edges.length = t.edges.length ∧
      ∀ symbol ∈ es.map Prod.fst, symbol ∈ fs.map Prod.fst ∧
        ∀ id, (symbol, id) ∈ es ↔ (symbol, id) ∈ fs := by
  rw [agrees, Bool.and_eq_true, beq_iff_eq, Unordered.sameMap_iff ht.labelsDistinct]
  refine and_congr_right fun _ => and_congr_right fun _ => ?_
  simp only [hs.mem_edges_iff, ht.mem_edges_iff]
  constructor
  · intro matched symbol used
    obtain ⟨_, ⟨used', rfl⟩, same⟩ := matched symbol _ ⟨used, rfl⟩
    exact ⟨used', (hs.sameSet_targets_iff ht symbol).1 same⟩
  · rintro matched symbol _ ⟨used, rfl⟩
    obtain ⟨used', same⟩ := matched symbol used
    exact ⟨_, ⟨used', rfl⟩, (hs.sameSet_targets_iff ht symbol).2 same⟩

/-- Two states agree when the same edges were added to them, in whatever order and however often,
and both accept or neither does. -/
lemma agrees_iff (hs : s.Lists es) (ht : t.Lists fs) :
    s.agrees t = true ↔ s.accepting = t.accepting ∧ ∀ edge, edge ∈ es ↔ edge ∈ fs := by
  rw [hs.agrees_iff_used ht]
  refine and_congr_right fun _ => ⟨?_, fun same => ?_⟩
  · rintro ⟨length, matched⟩ ⟨symbol, id⟩
    have labels := (hs.length_eq_and_used_iff ht).1 ⟨length, fun symbol used =>
      (matched symbol used).1⟩
    by_cases used : symbol ∈ es.map Prod.fst
    · exact (matched symbol used).2 id
    · -- a label that was not used has no targets in either state
      have unused : symbol ∉ fs.map Prod.fst := fun used' => used ((labels symbol).2 used')
      exact iff_of_false (fun mem => used (List.mem_map_of_mem mem))
        (fun mem => unused (List.mem_map_of_mem mem))
  · have labels : ∀ symbol, symbol ∈ es.map Prod.fst ↔ symbol ∈ fs.map Prod.fst := by simp [same]
    have length := ((hs.length_eq_and_used_iff ht).2 labels).1
    exact ⟨length, fun symbol used => ⟨(labels symbol).1 used, fun id => same (symbol, id)⟩⟩

end Lists

/-- A state that is made by adding edges lists them in the order in which they were first added, and
two such states agree exactly when they are made of the same set of edges and both accept or neither
does. -/
theorem ofEdges_lists_agrees_iff :
    (∀ accepting added, (ofEdges accepting added).Lists added) ∧
    ∀ (x y : Bool) (es fs : List (Symbol × StateId)),
      (ofEdges x es).agrees (ofEdges y fs) = true ↔ x = y ∧ ∀ edge, edge ∈ es ↔ edge ∈ fs := by
  refine ⟨lists_ofEdges, fun x y es fs => ?_⟩
  rw [(lists_ofEdges x es).agrees_iff (lists_ofEdges y fs), accepting_ofEdges, accepting_ofEdges]

example : (ofEdges false [(.char 'a', 3), (.char 'ε', 2), (.char 'a', 1), (.char 'a', 3),
    (.epsilon, 2)]).edges = [(.char 'a', [3, 1]), (.char 'ε', [2]), (.epsilon, [2])] := rfl

end State

end PatternAutomata
