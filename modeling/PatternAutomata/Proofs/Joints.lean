import PatternAutomata.Proofs.Bystanders
import PatternAutomata.Proofs.Compilation

/-!
# Joints of sequences

Fragments that stand one after the other are joined at the exit of each of them but the last. When
their exits are different states that accept (`Arena.Separate`), a joint changes only the state that
it is at: that state no longer accepts, and it has an edge to the next entry (`Arena.link`). So the
joints of a sequence can be made in any order (`Arena.links_perm`), and all of them are made in the
arena that the items of the sequence have been compiled in (`Expr.run_sequence`).
-/

namespace PatternAutomata

open Build Fragment

variable {a b : Arena} {f g : Fragment} {fs gs : List Fragment} {J K : List (StateId × StateId)}

namespace Arena

/-! ### Links -/

/-- Makes a state pass on to another one: it has one more edge and does not accept any more. -/
def link (a : Arena) (s t : StateId) : Arena :=
  a.modify s fun state => { state.connect .epsilon t with accepting := false }

/-- Makes some states pass on to others. -/
def links (a : Arena) (J : List (StateId × StateId)) : Arena :=
  J.foldl (fun a joint => a.link joint.1 joint.2) a

@[simp] lemma size_link {s t : StateId} : (a.link s t).size = a.size := size_modify ..

lemma state_link_of_ne {r s t : StateId} (h : r ≠ s) : (a.link s t).state r = a.state r := by
  rw [link, state_modify, if_neg fun both => h both.1.symm]

lemma links_append : a.links (J ++ K) = (a.links J).links K := List.foldl_append

/-- Links of different states can be made in any order. -/
lemma links_perm (perm : J.Perm K) (nodup : (J.map Prod.fst).Nodup) : a.links J = a.links K := by
  refine perm.foldl_eq' (fun j hj k hk b => ?_) a
  by_cases same : j.1 = k.1
  · rw [List.inj_on_of_nodup_map nodup hj hk same]
  · exact modify_comm same

/-- Two fragments are joined by a link of the first exit when the second exit accepts. -/
lemma joined_eq_link (ne : f.exit ≠ g.exit) (accepting : (a.state g.exit).accepting = true) :
    a.joined f g = a.link f.exit g.entry := by
  have still : (a.mark f.exit false).mark g.exit true = a.mark f.exit false := by
    refine modify_eq_self ?_
    rw [state_mark_of_ne ne.symm, ← accepting]
  rw [joined, still, mark, connect, modify_modify]
  rfl

end Arena

/-! ### Exits -/

/-- Fragments own their exits. -/
lemma Fragment.OccupyAll.exit_mem {T : Set StateId} {Ls : List Crossings}
    (own : OccupyAll fs a T Ls) : ∀ f ∈ fs, f.exit ∈ T := by
  induction own with
  | nil => simp
  | cons first _ _ ih =>
    exact List.forall_mem_cons.2 ⟨.inl first.exit_mem, fun f hf => .inr (ih f hf)⟩

namespace Arena

/-- The exits of some fragments are different states that accept. -/
structure Separate (a : Arena) (fs : List Fragment) : Prop where
  nodup : (fs.map Fragment.exit).Nodup
  lt_size : ∀ f ∈ fs, f.exit < a.size
  accepting : ∀ f ∈ fs, (a.state f.exit).accepting = true

/-- Fragments that own states are separate. -/
lemma Separate.of_occupyAll {T : Set StateId} {Ls : List Crossings} (own : OccupyAll fs a T Ls) :
    a.Separate fs := by
  induction own with
  | nil => exact ⟨List.nodup_nil, by simp, by simp⟩
  | cons first others apart ih =>
    refine ⟨List.nodup_cons.2 ⟨fun mem => ?_, ih.nodup⟩, ?_, ?_⟩
    · obtain ⟨g, hg, same⟩ := List.mem_map.1 mem
      exact Set.disjoint_left.1 apart first.exit_mem (same ▸ others.exit_mem g hg)
    · exact List.forall_mem_cons.2 ⟨first.lt_size _ first.exit_mem, ih.lt_size⟩
    · refine List.forall_mem_cons.2 ⟨?_, ih.accepting⟩
      exact (first.accepting_iff _ first.exit_mem).2 rfl

/-- When the first two of some fragments are joined, the others are as separate as before. -/
lemma Separate.link (separate : a.Separate (f :: g :: gs)) (s : StateId) :
    (a.link f.exit s).Separate (⟨f.entry, g.exit⟩ :: gs) := by
  obtain ⟨nodup, lt_size, accepting⟩ := separate
  rw [List.map_cons, List.nodup_cons] at nodup
  refine ⟨nodup.2, ?_, ?_⟩
  · rw [List.forall_mem_cons] at lt_size
    simpa using lt_size.2
  · have kept : ∀ h ∈ g :: gs, ((a.link f.exit s).state h.exit).accepting = true := by
      intro h mem
      have ne : h.exit ≠ f.exit := fun same => nodup.1 (same ▸ List.mem_map_of_mem mem)
      rw [state_link_of_ne ne]
      exact accepting h (List.mem_cons_of_mem f mem)
    exact List.forall_mem_cons.2 (List.forall_mem_cons.1 kept)

end Arena

/-! ### Sequences of fragments -/

namespace Fragment

/-- From the entry of a fragment to the exit of the last of those behind it. -/
def span (f : Fragment) (fs : List Fragment) : Fragment :=
  fs.foldl (fun f g => ⟨f.entry, g.exit⟩) f

/-- Where fragments that stand one after the other are joined, each exit with the next entry. -/
def joints : List Fragment → List (StateId × StateId)
  | f :: g :: fs => (f.exit, g.entry) :: joints (g :: fs)
  | _ => []

lemma joints_cons_cons : joints (f :: g :: fs) = (f.exit, g.entry) :: joints (g :: fs) := rfl

/-- The entry of the first fragment does not matter for the joints. -/
lemma joints_cons_of_exit_eq (same : f.exit = g.exit) : joints (f :: fs) = joints (g :: fs) := by
  cases fs with
  | nil => rfl
  | cons h fs => rw [joints_cons_cons, joints_cons_cons, same]

/-- Joints are at the exits of fragments. -/
lemma exists_mem_of_mem_joints {joint : StateId × StateId} (h : joint ∈ joints fs) :
    ∃ f ∈ fs, joint.1 = f.exit := by
  induction fs with
  | nil => cases h
  | cons f fs ih =>
    cases fs with
    | nil => cases h
    | cons g fs =>
      rw [joints_cons_cons, List.mem_cons] at h
      rcases h with rfl | later
      · exact ⟨f, List.mem_cons_self, rfl⟩
      · obtain ⟨f', mem, same⟩ := ih later
        exact ⟨f', List.mem_cons_of_mem f mem, same⟩

/-- The joints are at different states when the exits are different. -/
lemma nodup_joints (nodup : (fs.map exit).Nodup) : ((joints fs).map Prod.fst).Nodup := by
  induction fs with
  | nil => exact List.nodup_nil
  | cons f fs ih =>
    cases fs with
    | nil => exact List.nodup_nil
    | cons g fs =>
      rw [List.map_cons, List.nodup_cons] at nodup
      rw [joints_cons_cons, List.map_cons]
      refine List.nodup_cons.2 ⟨fun mem => nodup.1 ?_, ih nodup.2⟩
      obtain ⟨joint, hjoint, same⟩ := List.mem_map.1 mem
      obtain ⟨h, hh, at_exit⟩ := exists_mem_of_mem_joints hjoint
      exact List.mem_map.2 ⟨h, hh, at_exit.symm.trans same⟩

/-- The joints of separate fragments are at states that are there. -/
lemma lt_size_of_mem_joints (separate : a.Separate fs) :
    ∀ joint ∈ joints fs, joint.1 < a.size := by
  intro joint mem
  obtain ⟨f, hf, place⟩ := exists_mem_of_mem_joints mem
  rw [place]
  exact separate.lt_size f hf

/-- Two fragments whose exits are separate are joined by one link. -/
lemma run_concat_of_separate (separate : a.Separate (f :: g :: fs)) :
    (f.concat g).run a = .ok (⟨f.entry, g.exit⟩, a.link f.exit g.entry) := by
  obtain ⟨nodup, lt_size, accepting⟩ := separate
  have hf : f.exit < a.size := lt_size f (by simp)
  have hg : g.exit < a.size := lt_size g (by simp)
  have ne : f.exit ≠ g.exit := by
    rw [List.map_cons, List.map_cons, List.nodup_cons, List.mem_cons, not_or] at nodup
    exact nodup.1.1
  rw [run_concat hf hg, Arena.joined_eq_link ne (accepting g (by simp))]

/-- Several fragments are joined by their joints. -/
lemma run_concatAll (separate : a.Separate (f :: fs)) :
    (f.concatAll fs).run a = .ok (f.span fs, a.links (joints (f :: fs))) := by
  induction fs generalizing a f with
  | nil => rfl
  | cons g fs ih =>
    have same : joints (⟨f.entry, g.exit⟩ :: fs) = joints (g :: fs) := joints_cons_of_exit_eq rfl
    rw [concatAll, List.foldlM_cons, run_bind_of_run (run_concat_of_separate separate)]
    refine (ih (separate.link g.entry)).trans ?_
    rw [joints_cons_cons, same]
    rfl

end Fragment

/-! ### Sequences of expressions -/

/-- Links of states that a construction ignores can be made before it or after it. -/
lemma Build.Ignores.run_links {α : Type} {make : Build α} {owns : α → Prop} {r : α}
    (ignores : make.Ignores a.size owns) (run : make.run a = .ok (r, b))
    (old : ∀ joint ∈ J, joint.1 < a.size) : make.run (a.links J) = .ok (r, b.links J) := by
  generalize hn : a.size = n at ignores old
  induction J generalizing a b with
  | nil => exact run
  | cons joint J ih =>
    rw [List.forall_mem_cons] at old
    have again := (ignores hn.ge run).2.2 joint.1 old.1
      fun state => { state.connect .epsilon joint.2 with accepting := false }
    exact ih again (Arena.size_link.trans hn) old.2

namespace Expr

variable {es : List Expr}

/-- The fragments of some expressions are separate. -/
lemma separate_of_run (supported : allSupported es = true)
    (run : (compileAll es).run a = .ok (fs, b)) : b.Separate fs := by
  obtain ⟨made, c, run', -, own⟩ := compileAll_yields es supported a
  rw [run, Except.ok.injEq, Prod.mk.injEq] at run'
  obtain ⟨rfl, rfl⟩ := run'
  exact .of_occupyAll own

/-- A sequence is joined in the arena in which its items have been compiled. -/
lemma run_sequence (supported : allSupported es = true)
    (run : (compileAll es).run a = .ok (f :: fs, b)) :
    (sequence es).compile.run a = .ok (f.span fs, b.links (joints (f :: fs))) := by
  rw [compile, run_bind_of_run run]
  exact run_concatAll (separate_of_run supported run)

end Expr

end PatternAutomata
