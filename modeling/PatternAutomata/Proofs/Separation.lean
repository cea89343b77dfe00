import PatternAutomata.Proofs.Compiled
import PatternAutomata.Proofs.Linear
import PatternAutomata.Proofs.Renaming

/-!
# Fragments keep apart

The territory of a fragment consists of the states that can be reached from its entry, so what is
known of territories can be said without them. In a run of a linear script every fragment that has
not been used has one accepting state within reach, which is its exit, and no state can be reached
from two of them (`fragments_have_one_exit`).

Whatever a linear script does with other fragments, it leaves the states within reach of a fragment
as they are (`Fragment.Undisturbed`). One step does so because it changes only what its operands
own, and the relation is transitive, so a whole run does so too (`Script.Linear.run_append`). A
fragment therefore has the same table at any two points of a run between which it is not used.
-/

namespace PatternAutomata

open Arena Build

variable {f : Fragment} {a b c : Arena} {T : Set StateId} {L : Crossings}

namespace Fragment

/-- The exit of a fragment is another state than its entry, and the only accepting state that can be
reached from there. -/
structure HasOneExit (f : Fragment) (a : Arena) : Prop where
  entry_ne_exit : f.entry ≠ f.exit
  reach_exit : a.Reach f.entry f.exit
  accepting_iff : ∀ t, a.Reach f.entry t → ((a.state t).accepting = true ↔ t = f.exit)

/-- The territory of a fragment consists of what can be reached from its entry. -/
lemma Occupies.reach_iff (own : f.Occupies a T L) {t : StateId} :
    a.Reach f.entry t ↔ t ∈ T :=
  ⟨fun h => Reaches.mem_of_closed own.closed h own.entry_mem, own.reached t⟩

/-- A fragment that owns a territory has one exit. -/
lemma Occupies.hasOneExit (own : f.Occupies a T L) : f.HasOneExit a where
  entry_ne_exit := own.entry_ne_exit
  reach_exit := own.reached f.exit own.exit_mem
  accepting_iff t ht := own.accepting_iff t (own.reach_iff.1 ht)

/-- The exit is all there is to list of the accepting states. -/
lemma HasOneExit.acceptingStates_eq {nfa : Automaton}
    (single : (⟨nfa.entry, nfa.exit⟩ : Fragment).HasOneExit nfa.arena) (built : nfa.Built) :
    nfa.acceptingStates = [nfa.exit] := by
  have mem : ∀ t, t ∈ nfa.acceptingStates ↔ t ∈ [nfa.exit] := by
    intro t
    rw [Automaton.acceptingStates, List.mem_filter, built.mem_order_iff, List.mem_singleton]
    constructor
    · rintro ⟨reach, accepting⟩
      exact (single.accepting_iff t reach).1 accepting
    · rintro rfl
      exact ⟨single.reach_exit, (single.accepting_iff _ single.reach_exit).2 rfl⟩
  have nodup : nfa.acceptingStates.Nodup := nfa.nodup_order.filter _
  have perm := (List.perm_ext_iff_of_nodup nodup (List.nodup_singleton nfa.exit)).2 mem
  exact List.perm_singleton.1 perm

/-! ### Fragments that are not used -/

/-- What can be reached from the entry of a fragment is the same in a later arena. -/
structure Undisturbed (f : Fragment) (a b : Arena) : Prop where
  entry_lt : f.entry < a.size
  size_le : a.size ≤ b.size
  agree : ∀ t, a.Reach f.entry t → b.state t = a.state t

namespace Undisturbed

lemma refl (h : f.entry < a.size) : f.Undisturbed a a := ⟨h, le_rfl, fun _ _ => rfl⟩

/-- What could be reached can still be reached. -/
lemma reach (same : f.Undisturbed a b) {t : StateId} (h : a.Reach f.entry t) :
    b.Reach f.entry t := by
  have closed : a.ClosedUnder {t | a.Reach f.entry t} := fun _ hs _ ht => hs.tail ht
  exact h.of_agree closed same.agree .refl

lemma trans (first : f.Undisturbed a b) (second : f.Undisturbed b c) : f.Undisturbed a c where
  entry_lt := first.entry_lt
  size_le := first.size_le.trans second.size_le
  agree t ht := by rw [second.agree t (first.reach ht), first.agree t ht]

/-- The automata of an undisturbed fragment, before and after, are built, and they have the same
table and accept the same texts. -/
lemma exists_build (same : f.Undisturbed a b) (bounded : a.Bounded) (bounded' : b.Bounded) :
    ∃ m n, Automaton.build f a = .ok m ∧ Automaton.build f b = .ok n ∧ n.table = m.table ∧
      ∀ text, n.accepts text = m.accepts text := by
  have hm := Automaton.build_of_bounded bounded same.entry_lt
  have hn := Automaton.build_of_bounded bounded' (same.entry_lt.trans_le same.size_le)
  have built := Automaton.Built.of_build hm
  have built' := Automaton.Built.of_build hn
  have table := Automaton.Renamed.table_eq ⟨built, built', rfl, .of_agree same.agree⟩
  exact ⟨_, _, hm, hn, table, built.accepts_eq_of_table_eq built' table⟩

end Undisturbed

end Fragment

namespace Holdings

variable {made : Array Fragment} {live : Set ℕ} {owned : ℕ → Set StateId} {K : ℕ → Crossings}
  {i j : ℕ} {g : Fragment}

/-- Nothing can be reached from two fragments. -/
lemma disjoint_reach (holds : Holdings made a live owned K) (hi : i ∈ live) (hj : j ∈ live)
    (ne : i ≠ j) (hf : made[i]? = some f) (hg : made[j]? = some g) :
    Disjoint {t | a.Reach f.entry t} {t | a.Reach g.entry t} := by
  obtain ⟨_, found, own⟩ := holds.owns i hi
  obtain rfl := Option.some_inj.1 (found.symm.trans hf)
  obtain ⟨_, found', own'⟩ := holds.owns j hj
  obtain rfl := Option.some_inj.1 (found'.symm.trans hg)
  simpa only [own.reach_iff, own'.reach_iff, Set.ofPred_mem_eq] using holds.apart i hi j hj ne

/-- A change of what some fragments own does not disturb the others. -/
lemma undisturbed (holds : Holdings made a live owned K) {is : List ℕ}
    (framed : a.Extends b (territory owned is)) (hi : i ∈ live) (other : i ∉ is)
    (mem : ∀ j ∈ is, j ∈ live) (found : made[i]? = some f) : f.Undisturbed a b := by
  obtain ⟨_, found', own⟩ := holds.owns i hi
  obtain rfl := Option.some_inj.1 (found'.symm.trans found)
  refine ⟨own.lt_size _ own.entry_mem, framed.size_le, fun t ht => ?_⟩
  have inside := own.reach_iff.1 ht
  have apart := holds.disjoint_territory hi other mem
  exact framed.frame t (own.lt_size t inside) (Set.disjoint_left.1 apart inside)

end Holdings

namespace Script

variable {s t : Script} {i : ℕ}

/-- The beginning of a linear script is linear. -/
lemma Linear.of_append (linear : (s ++ t).Linear) : s.Linear := by
  induction t using List.reverseRecOn with
  | nil => rwa [List.append_nil] at linear
  | append_singleton t step ih =>
    rw [← List.append_assoc] at linear
    exact ih (linear_append_singleton linear).1

/-- A run of a linear script does not disturb the fragments that it has made up to some point and
that it does not use from there on. -/
theorem Linear.run_append (linear : (s ++ t).Linear) :
    ∃ made a made' b owned K, (Script.run #[] s).run .empty = .ok (made, a) ∧ a.Bounded ∧
      (Script.run #[] (s ++ t)).run .empty = .ok (made', b) ∧ made'.size = (s ++ t).length ∧
      Holdings made' b {i | (s ++ t).Live i} owned K ∧
      ∀ i < s.length, (s ++ t).Live i →
        ∃ f, made[i]? = some f ∧ made'[i]? = some f ∧ f.Undisturbed a b := by
  induction t using List.reverseRecOn with
  | nil =>
    rw [List.append_nil] at linear ⊢
    obtain ⟨made, a, owned, K, run, size, holds⟩ := linear.run
    refine ⟨made, a, made, a, owned, K, run, holds.bounded, run, size, holds, fun i _ live => ?_⟩
    obtain ⟨f, found, own⟩ := holds.owns i live
    exact ⟨f, found, found, .refl (own.lt_size _ own.entry_mem)⟩
  | append_singleton t step ih =>
    rw [← List.append_assoc] at linear ⊢
    obtain ⟨before, nodup, mem, returned⟩ := linear_append_singleton linear
    obtain ⟨made, a, made', b, owned, K, run, bounded, run', size, holds, kept⟩ := ih before
    have left : ∀ i ∈ {i | (s ++ t ++ [step]).Live i},
        i = made'.size ∨ i ∈ {i | (s ++ t).Live i} ∧ i ∉ step.operands := by
      intro i hi
      rw [size]
      exact live_append_singleton hi
    obtain ⟨g, c, owned', K', last, framed, holds'⟩ := holds.step step nodup mem returned left
    refine ⟨made, a, made'.push g, c, owned', K', run, bounded, ?_, ?_, holds', ?_⟩
    · rw [run_append_singleton, run_bind_of_run run', run_bind_of_run last]
      rfl
    · simp only [Array.size_push, size, List.length_append, List.length_singleton]
    · intro i old live
      have small : i < made'.size := by
        rw [size, List.length_append]
        exact Nat.lt_add_right _ old
      obtain ⟨live, unused⟩ := (left i live).resolve_left small.ne
      obtain ⟨f, found, found', same⟩ := kept i old live
      refine ⟨f, found, ?_, same.trans (holds.undisturbed framed live unused mem found')⟩
      rw [Array.getElem?_push, if_neg small.ne, found']

end Script

/-! ### One exit -/

/-- After every step of a linear script the fragments that have not been used have one exit each,
and nothing can be reached from two of them. The exit of the automaton of an expression is the only
accepting state that can be reached. -/
theorem fragments_have_one_exit :
    (∀ s : Script, s.Linear → ∀ n, ∃ (made : Array Fragment) (a : Arena),
      (Script.run #[] (s.take n)).run .empty = .ok (made, a) ∧
      (∀ i, Script.Live (s.take n) i → ∃ f, made[i]? = some f ∧ f.HasOneExit a) ∧
      ∀ i j f g, Script.Live (s.take n) i → Script.Live (s.take n) j → i ≠ j →
        made[i]? = some f → made[j]? = some g →
          Disjoint {t | a.Reach f.entry t} {t | a.Reach g.entry t}) ∧
    ∀ e nfa, Automaton.ofExpr e = .ok nfa → nfa.acceptingStates = [nfa.exit] := by
  refine ⟨fun s linear n => ?_, fun e nfa h => ?_⟩
  · rw [← List.take_append_drop n s] at linear
    obtain ⟨made, a, owned, K, run, -, holds⟩ := linear.of_append.run
    refine ⟨made, a, run, fun i live => ?_, fun i j f g hi hj ne => holds.disjoint_reach hi hj ne⟩
    obtain ⟨f, found, own⟩ := holds.owns i live
    exact ⟨f, found, own.hasOneExit⟩
  · obtain ⟨T, own⟩ := Automaton.exists_occupies_of_ofExpr h
    have built := Automaton.Built.of_build (Automaton.run_compile_of_ofExpr h).2
    exact own.hasOneExit.acceptingStates_eq built

theorem fragments_have_one_exit_interleaved : Script.interleaved.Linear ∧
    (∃ (made : Array Fragment) (a : Arena),
      (Script.run #[] (Script.interleaved.take 4)).run .empty = .ok (made, a) ∧
      (∀ i ∈ [1, 2, 3], ∃ f, made[i]? = some f ∧ f.HasOneExit a) ∧
      ∀ f g, made[1]? = some f → made[2]? = some g →
        Disjoint {t | a.Reach f.entry t} {t | a.Reach g.entry t}) ∧
    ∃ nfa, Automaton.ofExpr Automaton.nestedRepetition = .ok nfa ∧
      nfa.acceptingStates = [nfa.exit] := by
  have linear : Script.interleaved.Linear := by decide
  have live : ∀ i ∈ [1, 2, 3], Script.Live (Script.interleaved.take 4) i := by decide
  obtain ⟨made, a, run, single, apart⟩ := fragments_have_one_exit.1 _ linear 4
  obtain ⟨nfa, made', -⟩ := Automaton.construct_of_yields
    (Automaton.nestedRepetition.compile_yields (by decide) .empty)
  refine ⟨linear, ⟨made, a, run, fun i hi => single i (live i hi), fun f g => ?_⟩, nfa, made',
    fragments_have_one_exit.2 _ nfa made'⟩
  exact apart 1 2 f g (live 1 (by decide)) (live 2 (by decide)) (by decide)

namespace Script

/-- From the step on that has made it, a fragment has the same table, the same deterministic
automaton and the same language for as long as a linear script does not use it. -/
theorem Linear.table_stays (linear : (s ++ t).Linear) (old : i < s.length)
    (live : (s ++ t).Live i) :
    ∃ made a made' b f m n, (Script.run #[] s).run .empty = .ok (made, a) ∧
      (Script.run #[] (s ++ t)).run .empty = .ok (made', b) ∧
      made[i]? = some f ∧ made'[i]? = some f ∧
      Automaton.build f a = .ok m ∧ Automaton.build f b = .ok n ∧
      n.table = m.table ∧ n.determinize = m.determinize ∧
      ∀ text, n.accepts text = m.accepts text := by
  obtain ⟨made, a, made', b, owned, K, run, bounded, run', -, holds, kept⟩ := linear.run_append
  obtain ⟨f, found, found', same⟩ := kept i old live
  obtain ⟨m, n, hm, hn, table, accepts⟩ := same.exists_build bounded holds.bounded
  exact ⟨made, a, made', b, f, m, n, run, run', found, found', hm, hn, table,
    congrArg Dfa.ofTable table, accepts⟩

theorem Linear.table_stays_whileOthersJoin :
    ∃ s t : Script, (s ++ t).Linear ∧ 2 < s.length ∧ (s ++ t).Live 2 ∧
      ∃ made a made' b f m n, (Script.run #[] s).run .empty = .ok (made, a) ∧
        (Script.run #[] (s ++ t)).run .empty = .ok (made', b) ∧
        made[2]? = some f ∧ made'[2]? = some f ∧
        Automaton.build f a = .ok m ∧ Automaton.build f b = .ok n ∧
        n.table = m.table ∧ n.determinize = m.determinize ∧
        ∀ text, n.accepts text = m.accepts text :=
  ⟨[.char 'a', .char 'b', .plus 0], [.char 'c', .optional 1, .union 3 4], by decide, by decide,
    by decide, Linear.table_stays (by decide) (by decide) (by decide)⟩

end Script

end PatternAutomata
