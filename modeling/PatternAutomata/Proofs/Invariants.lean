import PatternAutomata.Compile
import PatternAutomata.Script
import PatternAutomata.Proofs.Edits

/-!
# Invariants of constructions

All constructions are made of three edits: they add a state, add an edge to a state that is there,
and change whether such a state accepts. A property of arenas that these edits keep is an
`Arena.Invariant`, and whatever expression is compiled keeps it (`Expr.compile_keeps`), and so does
whatever script is run (`Script.run_keeps`). Fragments are put together by edges that consume
nothing, so for a script it is enough that such edges keep a property (`Arena.SilentInvariant`) and
that a new fragment of one edge does.

One invariant is that no state uses a label for two groups of edges. It makes edges and paths speak
of the same thing: each successor of a state is a target of one of its labels, so that every state
that can be reached is reached by a path that spells some word
(`Arena.LabelsDistinct.exists_path_of_reach`).
-/

namespace PatternAutomata

/-! ### Properties that constructions keep -/

/-- A property of arenas that holds at first and that every edit keeps. -/
structure Arena.Invariant (P : Arena → Prop) : Prop where
  empty : P .empty
  push : ∀ {a : Arena} (accepting : Bool), P a → P (a.push (.new accepting))
  connect : ∀ {a : Arena} {s : StateId} (symbol : Symbol) (t : StateId), s < a.size → P a →
    P (a.connect s symbol t)
  mark : ∀ {a : Arena} {s : StateId} (accepting : Bool), s < a.size → P a → P (a.mark s accepting)

namespace Build

/-- A construction keeps a property of the arena whenever it succeeds. -/
def Keeps {α : Type} (make : Build α) (P : Arena → Prop) : Prop :=
  ∀ ⦃a b : Arena⦄ ⦃r : α⦄, make.run a = .ok (r, b) → P a → P b

variable {α β : Type} {P : Arena → Prop} {make : Build α} {next : α → Build β}

/-- A construction that succeeds has run its first part and then the second one. -/
lemma exists_of_run_bind {a c : Arena} {q : β} (h : (make >>= next).run a = .ok (q, c)) :
    ∃ r b, make.run a = .ok (r, b) ∧ (next r).run b = .ok (q, c) := by
  rw [StateT.run_bind] at h
  cases run : make.run a with
  | error e =>
    rw [run] at h
    cases h
  | ok result =>
    rw [run] at h
    exact ⟨result.1, result.2, rfl, h⟩

lemma keeps_pure (r : α) : (pure r : Build α).Keeps P := by
  intro a b q h holds
  cases h
  exact holds

lemma keeps_fail (e : Error) : (fail e : Build α).Keeps P := fun _ _ _ h => nomatch h

lemma Keeps.bind (first : make.Keeps P) (second : ∀ r, (next r).Keeps P) :
    (make >>= next).Keeps P := by
  intro a c q h holds
  obtain ⟨r, b, run, run'⟩ := exists_of_run_bind h
  exact second r run' (first run holds)

/-- A construction that is folded over some things keeps what each of its parts keeps. -/
lemma keeps_foldlM {op : α → β → Build α} (each : ∀ r q, (op r q).Keeps P) (r : α) (qs : List β) :
    (qs.foldlM op r).Keeps P := by
  induction qs generalizing r with
  | nil => exact keeps_pure r
  | cons q qs ih => exact (each r q).bind fun r => ih r

/-- An edit of a state succeeds only if the state is there. -/
lemma lt_of_run_edit {id : StateId} {change : State → State} {a b : Arena} {r : Unit}
    (h : (edit id change).run a = .ok (r, b)) : id < a.size ∧ b = a.modify id change := by
  by_cases there : id < a.size
  · rw [run_edit_of_lt there] at h
    cases h
    exact ⟨there, rfl⟩
  · rw [run_edit_of_le (Nat.not_lt.1 there)] at h
    cases h

end Build

namespace Arena

open Build

variable {P : Arena → Prop}

/-- A property of arenas that new states, edges that consume nothing and changes of acceptance
keep. -/
structure SilentInvariant (P : Arena → Prop) : Prop where
  push : ∀ {a : Arena} (accepting : Bool), P a → P (a.push (.new accepting))
  connect : ∀ {a : Arena} {s : StateId} (t : StateId), s < a.size → P a →
    P (a.connect s .epsilon t)
  mark : ∀ {a : Arena} {s : StateId} (accepting : Bool), s < a.size → P a → P (a.mark s accepting)

lemma Invariant.silent (inv : Invariant P) : SilentInvariant P :=
  ⟨inv.push, inv.connect .epsilon, inv.mark⟩

/-! ### Combinators -/

namespace SilentInvariant

variable (inv : SilentInvariant P)

include inv

lemma addState_keeps (accepting : Bool) : (addState accepting).Keeps P := by
  intro a b r h holds
  cases h
  exact inv.push accepting holds

lemma connect_keeps (s t : StateId) : (Build.connect s .epsilon t).Keeps P := by
  intro a b r h holds
  obtain ⟨there, rfl⟩ := lt_of_run_edit h
  exact inv.connect t there holds

lemma setAccepting_keeps (s : StateId) (accepting : Bool) : (setAccepting s accepting).Keeps P := by
  intro a b r h holds
  obtain ⟨there, rfl⟩ := lt_of_run_edit h
  exact inv.mark accepting there holds

lemma concat_keeps (f g : Fragment) : (f.concat g).Keeps P :=
  (inv.setAccepting_keeps _ _).bind fun _ => (inv.setAccepting_keeps _ _).bind fun _ =>
    (inv.connect_keeps _ _).bind fun _ => keeps_pure _

lemma union_keeps (f g : Fragment) : (f.union g).Keeps P :=
  (inv.addState_keeps _).bind fun _ => (inv.addState_keeps _).bind fun _ =>
    (inv.connect_keeps _ _).bind fun _ => (inv.connect_keeps _ _).bind fun _ =>
      (inv.setAccepting_keeps _ _).bind fun _ => (inv.setAccepting_keeps _ _).bind fun _ =>
        (inv.connect_keeps _ _).bind fun _ => (inv.connect_keeps _ _).bind fun _ =>
          keeps_pure _

lemma star_keeps (f : Fragment) : f.star.Keeps P :=
  (inv.connect_keeps _ _).bind fun _ => (inv.connect_keeps _ _).bind fun _ => keeps_pure _

lemma freshStar_keeps (f : Fragment) : f.freshStar.Keeps P :=
  (inv.addState_keeps _).bind fun _ => (inv.addState_keeps _).bind fun _ =>
    (inv.connect_keeps _ _).bind fun _ => (inv.connect_keeps _ _).bind fun _ =>
      (inv.setAccepting_keeps _ _).bind fun _ => (inv.connect_keeps _ _).bind fun _ =>
        (inv.connect_keeps _ _).bind fun _ => keeps_pure _

lemma plus_keeps (f : Fragment) : f.plus.Keeps P :=
  (inv.connect_keeps _ _).bind fun _ => keeps_pure _

lemma optional_keeps (f : Fragment) : f.optional.Keeps P :=
  (inv.connect_keeps _ _).bind fun _ => keeps_pure _

end SilentInvariant

/-- What is said of the edges of each state is an invariant if it holds of no edges and if another
target keeps it. -/
lemma invariant_of_edges {Q : List (Symbol × List StateId) → Prop} (none : Q [])
    (add : ∀ {edges} symbol t, Q edges → Q (State.addTarget symbol t edges)) :
    Invariant fun a => ∀ id, Q (a.state id).edges where
  empty id := by
    rw [state_of_size_le (Nat.zero_le id)]
    exact none
  push accepting holds id := by
    rw [edges_push]
    exact holds id
  connect symbol t there holds id := by
    rw [state_connect there]
    split
    · exact add symbol t (holds id)
    · exact holds id
  mark accepting there holds id := by
    rw [edges_mark]
    exact holds id

/-- A new fragment of one edge keeps what edges of every kind keep. -/
lemma Invariant.edge_keeps (inv : Invariant P) (symbol : Symbol) :
    (Fragment.edge symbol).Keeps P := by
  have joins : ∀ s t, (Build.connect s symbol t).Keeps P := by
    intro s t a b r h holds
    obtain ⟨there, rfl⟩ := lt_of_run_edit h
    exact inv.connect symbol t there holds
  exact (inv.silent.addState_keeps _).bind fun _ => (inv.silent.addState_keeps _).bind fun _ =>
    (joins _ _).bind fun _ => keeps_pure _

end Arena

/-! ### Expressions -/

namespace Expr

open Build

variable {P : Arena → Prop}

mutual

/-- Compiling an expression keeps every invariant. -/
theorem compile_keeps (inv : Arena.Invariant P) (e : Expr) : e.compile.Keeps P := by
  cases e with
  | root flags body =>
    rw [compile]
    split
    · exact compile_keeps inv body
    · exact keeps_fail _
  | sequence items =>
    rw [compile]
    refine (compileAll_keeps inv items).bind fun fs => ?_
    cases fs with
    | nil => exact keeps_fail _
    | cons f fs => exact keeps_foldlM inv.silent.concat_keeps f fs
  | choice left right =>
    rw [compile]
    exact (compile_keeps inv left).bind fun f => (compile_keeps inv right).bind fun g =>
      inv.silent.union_keeps f g
  | repetition quantifier operand =>
    rw [compile]
    refine (compile_keeps inv operand).bind fun f => ?_
    split
    · exact inv.silent.star_keeps f
    · exact inv.silent.plus_keeps f
    · exact inv.silent.optional_keeps f
    · exact keeps_fail _
  | char kind value =>
    cases kind with
    | simple => exact inv.edge_keeps _
    | _ => exact keeps_fail _
  | group capturing body =>
    rw [compile]
    exact compile_keeps inv body
  | charClass text => exact keeps_fail _
  | assertion text => exact keeps_fail _
  | backreference text => exact keeps_fail _

/-- Compiling some expressions keeps every invariant. -/
theorem compileAll_keeps (inv : Arena.Invariant P) (es : List Expr) : (compileAll es).Keeps P := by
  cases es with
  | nil => exact keeps_pure _
  | cons e es =>
    rw [compileAll]
    exact (compile_keeps inv e).bind fun f => (compileAll_keeps inv es).bind fun fs =>
      keeps_pure _

end

end Expr

/-! ### Scripts -/

section Scripts

open Build

variable {P : Arena → Prop}

lemma Step.lookup_keeps (made : Array Fragment) (number : ℕ) : (lookup made number).Keeps P := by
  unfold lookup
  split
  · exact keeps_pure _
  · exact keeps_fail _

/-- Looking several fragments up changes nothing. -/
lemma Step.lookups_keep (made : Array Fragment) (numbers : List ℕ) :
    (numbers.mapM (lookup made)).Keeps P := by
  induction numbers with
  | nil => exact keeps_pure _
  | cons number numbers ih =>
    rw [List.mapM_cons]
    exact (lookup_keeps made number).bind fun _ => ih.bind fun _ => keeps_pure _

/-- A step keeps what new fragments of one edge and edges that consume nothing keep, whatever the
fragments are that it uses. -/
lemma Step.run_keeps (inv : Arena.SilentInvariant P)
    (edge : ∀ symbol, (Fragment.edge symbol).Keeps P) (made : Array Fragment) (step : Step) :
    (step.run made).Keeps P := by
  cases step with
  | char c => exact edge (.char c)
  | epsilon => exact edge .epsilon
  | concat first second =>
    exact (lookup_keeps made first).bind fun f => (lookup_keeps made second).bind fun g =>
      inv.concat_keeps f g
  | concatAll first others =>
    exact (lookup_keeps made first).bind fun f => (lookups_keep made others).bind fun fs =>
      keeps_foldlM inv.concat_keeps f fs
  | union first second =>
    exact (lookup_keeps made first).bind fun f => (lookup_keeps made second).bind fun g =>
      inv.union_keeps f g
  | unionAll first others =>
    exact (lookup_keeps made first).bind fun f => (lookups_keep made others).bind fun fs =>
      keeps_foldlM inv.union_keeps f fs
  | star operand => exact (lookup_keeps made operand).bind inv.star_keeps
  | freshStar operand => exact (lookup_keeps made operand).bind inv.freshStar_keeps
  | plus operand => exact (lookup_keeps made operand).bind inv.plus_keeps
  | optional operand => exact (lookup_keeps made operand).bind inv.optional_keeps
  | fragment f => exact keeps_pure f

/-- A script keeps what its steps keep. -/
theorem Script.run_keeps (inv : Arena.SilentInvariant P)
    (edge : ∀ symbol, (Fragment.edge symbol).Keeps P) (made : Array Fragment) (s : Script) :
    (Script.run made s).Keeps P := by
  induction s generalizing made with
  | nil => exact keeps_pure made
  | cons step s ih => exact (step.run_keeps inv edge made).bind fun f => ih (made.push f)

/-- An invariant holds of the arena that a script leaves behind. -/
lemma Arena.Invariant.of_run (inv : Arena.Invariant P) {s : Script} {made : Array Fragment}
    {a : Arena} (run : (Script.run #[] s).run .empty = .ok (made, a)) : P a :=
  Script.run_keeps inv.silent inv.edge_keeps #[] s run inv.empty

end Scripts

/-! ### Labels that are used once -/

/-- A key that occurs once is looked up as the value behind it. -/
lemma lookup_eq_some_iff_mem {α β : Type} [DecidableEq α] {l : List (α × β)}
    (distinct : (l.map Prod.fst).Nodup) {k : α} {v : β} :
    l.lookup k = some v ↔ (k, v) ∈ l := by
  induction l with
  | nil => simp
  | cons entry l ih => grind

namespace State

/-- No label stands before two groups of edges. -/
def LabelsDistinct (s : State) : Prop := (s.edges.map Prod.fst).Nodup

/-- A label that is added is added once. -/
lemma map_fst_addTarget (symbol : Symbol) (t : StateId) (edges : List (Symbol × List StateId)) :
    (addTarget symbol t edges).map Prod.fst =
      if symbol ∈ edges.map Prod.fst then edges.map Prod.fst
      else edges.map Prod.fst ++ [symbol] := by
  induction edges with
  | nil => simp [addTarget]
  | cons edge edges ih =>
    obtain ⟨label, targets⟩ := edge
    by_cases same : label = symbol
    · simp [addTarget, same]
    · have other : symbol ≠ label := Ne.symm same
      simp only [addTarget, if_neg same, List.map_cons, ih, List.mem_cons, other, false_or]
      split <;> rfl

lemma nodup_map_fst_addTarget {edges : List (Symbol × List StateId)} (symbol : Symbol)
    (t : StateId) (distinct : (edges.map Prod.fst).Nodup) :
    ((addTarget symbol t edges).map Prod.fst).Nodup := by
  rw [map_fst_addTarget]
  split
  · exact distinct
  · rename_i absent
    exact List.nodup_append.2 ⟨distinct, List.nodup_singleton _, by grind⟩

/-- When labels are used once, a label leads to all the targets behind it. -/
lemma LabelsDistinct.targets_eq {s : State} (distinct : s.LabelsDistinct)
    {edge : Symbol × List StateId} (mem : edge ∈ s.edges) : s.targets edge.1 = edge.2 := by
  rw [targets, (lookup_eq_some_iff_mem distinct).2 mem, Option.getD_some]

lemma LabelsDistinct.mem_targets {s : State} (distinct : s.LabelsDistinct)
    {edge : Symbol × List StateId} (mem : edge ∈ s.edges) {t : StateId} (ht : t ∈ edge.2) :
    t ∈ s.targets edge.1 := by
  rwa [distinct.targets_eq mem]

/-- When labels are used once, a successor is a target of the label before it. -/
lemma LabelsDistinct.exists_mem_targets {s : State} (distinct : s.LabelsDistinct) {t : StateId}
    (h : t ∈ s.successors) : ∃ symbol, t ∈ s.targets symbol := by
  obtain ⟨edge, mem, ht⟩ := List.mem_flatMap.1 h
  exact ⟨edge.1, distinct.mem_targets mem ht⟩

end State

namespace Arena

/-- No state uses a label for two groups of edges. -/
def LabelsDistinct (a : Arena) : Prop := ∀ id, (a.state id).LabelsDistinct

/-- Edits keep the labels of each state distinct. -/
lemma invariant_labelsDistinct : Invariant LabelsDistinct :=
  invariant_of_edges (Q := fun edges => (edges.map Prod.fst).Nodup) List.nodup_nil
    State.nodup_map_fst_addTarget

/-- When labels are used once, a state that can be reached is reached by a path. -/
lemma LabelsDistinct.exists_path_of_reach {a : Arena} {s t : StateId} (distinct : a.LabelsDistinct)
    (h : a.Reach s t) : ∃ word, a.Path s word t := by
  induction h using Relation.ReflTransGen.head_induction_on with
  | refl => exact ⟨[], .refl t⟩
  | @head s r edge _ ih =>
    obtain ⟨word, path⟩ := ih
    obtain ⟨symbol, target⟩ := (distinct s).exists_mem_targets edge
    cases symbol with
    | epsilon => exact ⟨word, .epsilon target path⟩
    | char c => exact ⟨c :: word, .char target path⟩

end Arena

end PatternAutomata
