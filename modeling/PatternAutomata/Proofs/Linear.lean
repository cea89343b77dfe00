import PatternAutomata.Script
import PatternAutomata.Proofs.Combinators

/-!
# Linear scripts

A script is linear when its steps use fragments that earlier steps have made, each at most once. In
a run of a linear script the fragments that no step has used yet own territories that do not overlap
(`Holdings`), each step keeps this (`Holdings.step`), and so does the whole run
(`Script.Linear.run`). Whatever else has been constructed in between, the combinators therefore
obey the laws of languages in the words that their operands have when they are used.
-/

namespace PatternAutomata

open scoped Computability

open Arena Build Fragment

namespace Step

/-- The numbers of the fragments that a step uses. -/
def operands : Step → List ℕ
  | char _ => []
  | epsilon => []
  | concat first second => [first, second]
  | concatAll first others => first :: others
  | union first second => [first, second]
  | unionAll first others => first :: others
  | star operand => [operand]
  | freshStar operand => [operand]
  | plus operand => [operand]
  | optional operand => [operand]
  | fragment _ => []

/-- Whether a step takes its fragment from nowhere. -/
def invents : Step → Bool
  | fragment _ => true
  | _ => false

/-- The crossings of the fragment that a step makes, from those of the fragments that it uses. -/
def crossings (L : ℕ → Crossings) : Step → Crossings
  | char c => .direct {[c]}
  | epsilon => .direct 1
  | concat first second => (L first).concat (L second)
  | concatAll first others => .sequence (L first :: others.map L)
  | union first second => (L first).union (L second)
  | unionAll first others => (others.map L).foldl .union (L first)
  | star operand => (L operand).star
  | freshStar operand => (L operand).freshStar
  | plus operand => (L operand).plus
  | optional operand => (L operand).optional
  | fragment _ => .sequence []

end Step

/-- The steps of a script use fragments that earlier steps have made, each at most once. -/
structure Script.Linear (s : Script) : Prop where
  nodup : (s.flatMap Step.operands).Nodup
  earlier : ∀ n (h : n < s.length), ∀ i ∈ s[n].operands, i < n
  returned : ∀ step ∈ s, step.invents = false

/-- A step of a script has made a fragment that no step has used. -/
def Script.Live (s : Script) (i : ℕ) : Prop := i < s.length ∧ i ∉ s.flatMap Step.operands

instance (s : Script) : Decidable s.Linear :=
  letI : Decidable (∀ n (h : n < s.length), ∀ i ∈ s[n].operands, i < n) := inferInstance
  decidable_of_iff ((s.flatMap Step.operands).Nodup ∧ _ ∧ ∀ step ∈ s, step.invents = false)
    ⟨fun ⟨nodup, earlier, returned⟩ => ⟨nodup, earlier, returned⟩,
      fun linear => ⟨linear.nodup, linear.earlier, linear.returned⟩⟩

instance (s : Script) (i : ℕ) : Decidable (s.Live i) :=
  inferInstanceAs (Decidable (i < s.length ∧ i ∉ s.flatMap Step.operands))

/-- The states that some fragments own. -/
def territory (owned : ℕ → Set StateId) (is : List ℕ) : Set StateId := {s | ∃ i ∈ is, s ∈ owned i}

/-- Some fragments with the given crossings own sets of states that do not overlap. -/
structure Holdings (made : Array Fragment) (a : Arena) (live : Set ℕ) (owned : ℕ → Set StateId)
    (L : ℕ → Crossings) : Prop where
  bounded : a.Bounded
  owns : ∀ i ∈ live, ∃ f, made[i]? = some f ∧ f.Occupies a (owned i) (L i)
  apart : ∀ i ∈ live, ∀ j ∈ live, i ≠ j → Disjoint (owned i) (owned j)

section

variable {owned : ℕ → Set StateId} {i : ℕ} {is : List ℕ} {T : Set StateId}

@[simp] lemma territory_nil : territory owned [] = ∅ := by simp [territory]

@[simp] lemma territory_cons : territory owned (i :: is) = owned i ∪ territory owned is := by
  ext s
  simp [territory]

end

namespace Holdings

variable {made : Array Fragment} {a : Arena} {live : Set ℕ} {owned : ℕ → Set StateId}
  {L : ℕ → Crossings} {β : Type} {T : Set StateId} {owns : β → Arena → Set StateId → Prop}

/-! ### Looking fragments up -/

/-- A fragment that has been made is looked up without a change. -/
lemma yields_lookup (holds : Holdings made a live owned L) {i : ℕ} (hi : i ∈ live)
    {next : Fragment → Build β}
    (h : ∀ f, f.Occupies a (owned i) (L i) → Yields (next f) a T owns) :
    Yields (Step.lookup made i >>= next) a T owns := by
  obtain ⟨f, found, own⟩ := holds.owns i hi
  have run : (Step.lookup made i).run a = .ok (f, a) := by
    rw [Step.lookup, found]
    rfl
  obtain ⟨r, b, run', result⟩ := h f own
  exact ⟨r, b, (run_bind_of_run run).trans run', result⟩

/-- A fragment is apart from others. -/
lemma disjoint_territory (holds : Holdings made a live owned L) {i : ℕ} {is : List ℕ}
    (hi : i ∈ live) (other : i ∉ is) (mem : ∀ j ∈ is, j ∈ live) :
    Disjoint (owned i) (territory owned is) := by
  refine Set.disjoint_left.2 fun s hs ⟨j, hj, member⟩ => ?_
  have ne : i ≠ j := by
    rintro rfl
    exact other hj
  exact Set.disjoint_left.1 (holds.apart i hi j (mem j hj) ne) hs member

/-- Fragments that have been made are looked up without a change. -/
lemma yields_lookups (holds : Holdings made a live owned L) {is : List ℕ} (nodup : is.Nodup)
    (mem : ∀ i ∈ is, i ∈ live) {next : List Fragment → Build β}
    (h : ∀ fs, OccupyAll fs a (territory owned is) (is.map L) → Yields (next fs) a T owns) :
    Yields (is.mapM (Step.lookup made) >>= next) a T owns := by
  induction is generalizing next with
  | nil =>
    have none := h [] (by rw [territory_nil]; exact .nil)
    simpa using none
  | cons i is ih =>
    rw [List.nodup_cons] at nodup
    rw [List.mapM_cons, bind_assoc]
    have hi : i ∈ live := mem i (List.mem_cons_self ..)
    have rest : ∀ j ∈ is, j ∈ live := fun j hj => mem j (List.mem_cons_of_mem i hj)
    refine holds.yields_lookup hi fun f own => ?_
    rw [bind_assoc]
    refine ih nodup.2 rest fun fs others => ?_
    have apart := holds.disjoint_territory hi nodup.1 rest
    rw [pure_bind]
    refine h (f :: fs) ?_
    rw [territory_cons, List.map_cons]
    exact .cons own others apart

/-! ### One step -/

/-- Two fragments are looked up and combined. -/
lemma yields_pair {op : Fragment → Fragment → Build Fragment}
    {combine : Crossings → Crossings → Crossings} (combines : Combines op combine)
    (holds : Holdings made a live owned L) {i j : ℕ} (nodup : [i, j].Nodup)
    (mem : ∀ k ∈ [i, j], k ∈ live) :
    Yields (do op (← Step.lookup made i) (← Step.lookup made j)) a (territory owned [i, j])
      (·.Occupies · · (combine (L i) (L j))) := by
  have hi : i ∈ live := mem i (by simp)
  have hj : j ∈ live := mem j (by simp)
  have ne : i ≠ j := by simpa using nodup
  rw [territory_cons, territory_cons, territory_nil, Set.union_empty]
  refine holds.yields_lookup hi fun f own => holds.yields_lookup hj fun g own' => ?_
  exact combines own own' (holds.apart i hi j hj ne)

/-- Several fragments are looked up and combined from the left. -/
lemma yields_fold {op : Fragment → Fragment → Build Fragment}
    {combine : Crossings → Crossings → Crossings} (combines : Combines op combine)
    (holds : Holdings made a live owned L) {i : ℕ} {is : List ℕ} (nodup : (i :: is).Nodup)
    (mem : ∀ k ∈ i :: is, k ∈ live) :
    Yields (do (fun f fs => fs.foldlM op f) (← Step.lookup made i) (← is.mapM (Step.lookup made)))
      a (territory owned (i :: is)) (·.Occupies · · ((is.map L).foldl combine (L i))) := by
  rw [List.nodup_cons] at nodup
  have hi : i ∈ live := mem i (List.mem_cons_self ..)
  have rest : ∀ j ∈ is, j ∈ live := fun j hj => mem j (List.mem_cons_of_mem i hj)
  have apart : Disjoint (owned i) (territory owned is) := holds.disjoint_territory hi nodup.1 rest
  rw [territory_cons]
  refine holds.yields_lookup hi fun f own => ?_
  exact holds.yields_lookups nodup.2 rest fun fs others => combines.foldlM own others apart

/-- One fragment is looked up and changed. -/
lemma yields_single {op : Fragment → Build Fragment} {change : Crossings → Crossings}
    (changes : ∀ {a : Arena} {f : Fragment} {T : Set StateId} {L : Crossings},
      f.Occupies a T L → (op f).Yields a T (·.Occupies · · (change L)))
    (holds : Holdings made a live owned L) {i : ℕ} (mem : ∀ k ∈ [i], k ∈ live) :
    Yields (do op (← Step.lookup made i)) a (territory owned [i])
      (·.Occupies · · (change (L i))) := by
  rw [territory_cons, territory_nil, Set.union_empty]
  exact holds.yields_lookup (mem i (List.mem_cons_self ..)) fun f own => changes own

/-- A step uses up what its operands own and makes a fragment with the crossings of the step. -/
theorem step_yields (holds : Holdings made a live owned L) (step : Step)
    (nodup : step.operands.Nodup) (mem : ∀ i ∈ step.operands, i ∈ live)
    (returned : step.invents = false) :
    (step.run made).Yields a (territory owned step.operands)
      (·.Occupies · · (step.crossings L)) := by
  cases step with
  | char c =>
    rw [Step.operands, territory_nil]
    exact edge_yields a (.char c)
  | epsilon =>
    rw [Step.operands, territory_nil]
    exact edge_yields a .epsilon
  | concat first second => exact yields_pair concat_yields holds nodup mem
  | concatAll first others =>
    rw [Step.crossings, ← Crossings.foldl_concat]
    exact yields_fold concat_yields holds nodup mem
  | union first second => exact yields_pair union_yields holds nodup mem
  | unionAll first others => exact yields_fold union_yields holds nodup mem
  | star operand => exact yields_single star_yields holds mem
  | freshStar operand => exact yields_single freshStar_yields holds mem
  | plus operand => exact yields_single plus_yields holds mem
  | optional operand => exact yields_single optional_yields holds mem
  | fragment f => cases returned

/-- A step changes nothing but what its operands own. After it the fragments that it has not used
and the one that it has made own territories that do not overlap. -/
theorem step (holds : Holdings made a live owned L) (step : Step) (nodup : step.operands.Nodup)
    (mem : ∀ i ∈ step.operands, i ∈ live) (returned : step.invents = false) {live' : Set ℕ}
    (left : ∀ i ∈ live', i = made.size ∨ i ∈ live ∧ i ∉ step.operands) :
    ∃ f b owned' L', (step.run made).run a = .ok (f, b) ∧
      a.Extends b (territory owned step.operands) ∧
        Holdings (made.push f) b live' owned' L' := by
  obtain ⟨f, b, run, framed, own⟩ := holds.step_yields step nodup mem returned
  set T := territory owned step.operands
  have old : ∀ i ∈ live, i ≠ made.size := by
    intro i hi
    obtain ⟨g, found, -⟩ := holds.owns i hi
    exact (Array.getElem?_eq_some_iff.1 found).1.ne
  have unused : ∀ i ∈ live, i ∉ step.operands → Disjoint T (owned i) := fun i hi other =>
    (holds.disjoint_territory hi other mem).symm
  have fresh : ∀ i ∈ live, i ∉ step.operands → Disjoint (T ∪ a.added b) (owned i) := by
    intro i hi other
    obtain ⟨g, -, ownG⟩ := holds.owns i hi
    exact Set.disjoint_union_left.2 ⟨unused i hi other, disjoint_added ownG.lt_size⟩
  refine ⟨f, b, Function.update owned made.size (T ∪ a.added b),
    Function.update L made.size (step.crossings L), run, framed, ?_, ?_, ?_⟩
  · exact framed.bounded holds.bounded own.closed fun s hs => own.lt_size s (.inl hs)
  · intro i hi
    rcases left i hi with rfl | ⟨hi, other⟩
    · refine ⟨f, Array.getElem?_push_size, ?_⟩
      rw [Function.update_self, Function.update_self]
      exact own
    · obtain ⟨g, found, ownG⟩ := holds.owns i hi
      refine ⟨g, ?_, ?_⟩
      · rw [Array.getElem?_push, if_neg (old i hi), found]
      · rw [Function.update_of_ne (old i hi), Function.update_of_ne (old i hi)]
        exact framed.occupies ownG (unused i hi other)
  · intro i hi j hj ne
    rcases left i hi with rfl | ⟨hi, otherI⟩ <;> rcases left j hj with rfl | ⟨hj, otherJ⟩
    · exact absurd rfl ne
    · rw [Function.update_self, Function.update_of_ne (old j hj)]
      exact fresh j hj otherJ
    · rw [Function.update_self, Function.update_of_ne (old i hi)]
      exact (fresh i hi otherI).symm
    · rw [Function.update_of_ne (old i hi), Function.update_of_ne (old j hj)]
      exact holds.apart i hi j hj ne

end Holdings

namespace Script

/-! ### Whole runs -/

/-- The last step of a script is run behind the others. -/
lemma run_append_singleton (s : Script) (step : Step) (made : Array Fragment) :
    run made (s ++ [step]) = do
      let made ← run made s
      let f ← step.run made
      return made.push f := by
  induction s generalizing made with
  | nil => simp [run]
  | cons first s ih => simp [run, ih]

/-- The last step of a linear script uses fragments that the linear script before it has made and
not used. -/
lemma linear_append_singleton {s : Script} {step : Step} (linear : (s ++ [step]).Linear) :
    s.Linear ∧ step.operands.Nodup ∧ (∀ i ∈ step.operands, s.Live i) ∧ step.invents = false := by
  have nodup := linear.nodup
  rw [List.flatMap_append, List.flatMap_singleton, List.nodup_append] at nodup
  obtain ⟨before, last, apart⟩ := nodup
  have inside : ∀ n, n < s.length → n < (s ++ [step]).length := by
    intro n hn
    rw [List.length_append]
    exact Nat.lt_add_right _ hn
  refine ⟨⟨before, fun n hn i hi => ?_, fun other h => ?_⟩, last, fun i hi => ⟨?_, ?_⟩, ?_⟩
  · refine linear.earlier n (inside n hn) i ?_
    rwa [List.getElem_append_left hn]
  · exact linear.returned other (List.mem_append_left _ h)
  · refine linear.earlier s.length (by simp) i ?_
    simpa using hi
  · intro used
    exact apart i used i hi rfl
  · exact linear.returned step (by simp)

/-- What is live after a step is made by it, or has been live and is not used by it. -/
lemma live_append_singleton {s : Script} {step : Step} {i : ℕ} (live : (s ++ [step]).Live i) :
    i = s.length ∨ s.Live i ∧ i ∉ step.operands := by
  obtain ⟨lt, unused⟩ := live
  rw [List.length_append, List.length_singleton] at lt
  rw [List.flatMap_append, List.flatMap_singleton, List.mem_append, not_or] at unused
  by_cases last : i = s.length
  · exact .inl last
  · exact .inr ⟨⟨by omega, unused.1⟩, unused.2⟩

/-- A run of a linear script succeeds, and the fragments that have not been used own territories
that do not overlap. -/
theorem Linear.run {s : Script} (linear : s.Linear) :
    ∃ made a owned L, (Script.run #[] s).run .empty = .ok (made, a) ∧ made.size = s.length ∧
      Holdings made a {i | s.Live i} owned L := by
  induction s using List.reverseRecOn with
  | nil =>
    have none : ∀ i, ¬Live [] i := fun i live => absurd live.1 (Nat.not_lt_zero i)
    refine ⟨#[], .empty, fun _ => ∅, fun _ => .sequence [], rfl, rfl, ?_, ?_, ?_⟩
    · exact fun s hs => absurd hs (Nat.not_lt_zero s)
    · exact fun i hi => absurd hi (none i)
    · exact fun i hi => absurd hi (none i)
  | append_singleton s step ih =>
    obtain ⟨before, nodup, mem, returned⟩ := linear_append_singleton linear
    obtain ⟨made, a, owned, L, run, size, holds⟩ := ih before
    have left : ∀ i ∈ {i | Live (s ++ [step]) i},
        i = made.size ∨ i ∈ {i | Live s i} ∧ i ∉ step.operands := by
      intro i hi
      rw [size]
      exact live_append_singleton hi
    obtain ⟨f, b, owned', L', run', -, holds'⟩ := holds.step step nodup mem returned left
    refine ⟨made.push f, b, owned', L', ?_, ?_, holds'⟩
    · rw [run_append_singleton, run_bind_of_run run, run_bind_of_run run']
      rfl
    · rw [Array.size_push, size, List.length_append, List.length_singleton]

end Script

/-! ### Laws of languages -/

/-- The automaton of a fragment is built and accepts exactly the words of a language. -/
def Fragment.Recognizes (f : Fragment) (a : Arena) (L : Language Char) : Prop :=
  ∃ nfa, Automaton.build f a = .ok nfa ∧ ∀ text, nfa.accepts text = true ↔ text.toList ∈ L

/-- A step makes a fragment that recognizes a language. -/
def Step.Recognizes (step : Step) (made : Array Fragment) (a : Arena) (L : Language Char) : Prop :=
  ∃ f b, (step.run made).run a = .ok (f, b) ∧ f.Recognizes b L

/-- A fragment that owns a territory recognizes the words through it. -/
lemma Fragment.Occupies.recognizes {f : Fragment} {a : Arena} {T : Set StateId} {L : Crossings}
    (own : f.Occupies a T L) (bounded : a.Bounded) : f.Recognizes a L.through :=
  ⟨_, own.build_eq bounded, own.accepts_iff bounded⟩

/-- A step that uses fragments once recognizes the words through its crossings. -/
lemma Holdings.recognizes {made : Array Fragment} {a : Arena} {live : Set ℕ}
    {owned : ℕ → Set StateId} {L : ℕ → Crossings} (holds : Holdings made a live owned L)
    (step : Step) (nodup : step.operands.Nodup) (mem : ∀ i ∈ step.operands, i ∈ live)
    (returned : step.invents = false) : step.Recognizes made a (step.crossings L).through := by
  obtain ⟨f, b, run, framed, own⟩ := holds.step_yields step nodup mem returned
  have bounded : b.Bounded :=
    framed.bounded holds.bounded own.closed fun s hs => own.lt_size s (.inl hs)
  exact ⟨f, b, run, own.recognizes bounded⟩

namespace Script

/-- A run of a linear script succeeds, each fragment that it leaves unused recognizes a language,
and steps that use some of them once recognize joined words, words of any of them and repeated
words; a repetition within its operand recognizes at least the repeated words. -/
theorem Linear.combinators_recognize {s : Script} (linear : s.Linear) :
    ∃ (made : Array Fragment) (a : Arena) (L : ℕ → Language Char),
      (Script.run #[] s).run .empty = .ok (made, a) ∧
      (∀ i, s.Live i → ∃ f, made[i]? = some f ∧ f.Recognizes a (L i)) ∧
      (∀ i is, (i :: is).Nodup → (∀ j ∈ i :: is, s.Live j) →
        (Step.concatAll i is).Recognizes made a (L i * (is.map L).prod) ∧
        (Step.unionAll i is).Recognizes made a (L i + (is.map L).sum)) ∧
      ∀ i, s.Live i →
        (Step.plus i).Recognizes made a (L i * (L i)∗) ∧
        (Step.freshStar i).Recognizes made a (L i)∗ ∧
        ∃ K, (L i)∗ ≤ K ∧ (Step.star i).Recognizes made a K := by
  obtain ⟨made, a, owned, L, run, -, holds⟩ := linear.run
  have alone : ∀ i, s.Live i → ∀ j ∈ [i], j ∈ {i | s.Live i} := by
    intro i live j hj
    rwa [List.mem_singleton.1 hj]
  refine ⟨made, a, fun i => (L i).through, run, fun i live => ?_, fun i is nodup mem => ⟨?_, ?_⟩,
    fun i live => ⟨?_, ?_, ?_⟩⟩
  · obtain ⟨f, found, own⟩ := holds.owns i live
    exact ⟨f, found, own.recognizes holds.bounded⟩
  · have joined := holds.recognizes (.concatAll i is) nodup mem rfl
    rw [Step.crossings, Crossings.sequence_through, List.map_map] at joined
    exact joined
  · have united := holds.recognizes (.unionAll i is) nodup mem rfl
    rw [Step.crossings, Crossings.foldl_union_through, List.map_map] at united
    exact united
  · have repeated := holds.recognizes (.plus i) (List.nodup_singleton i) (alone i live) rfl
    rw [Step.crossings, Crossings.plus_through] at repeated
    exact repeated
  · exact holds.recognizes (.freshStar i) (List.nodup_singleton i) (alone i live) rfl
  · refine ⟨(L i).total∗, kstar_mono ((L i).le_total _ _), ?_⟩
    exact holds.recognizes (.star i) (List.nodup_singleton i) (alone i live) rfl

/-- A script that constructs three fragments in turns, with loops and skips within them. -/
def interleaved : Script :=
  [.char 'a', .char 'b', .plus 0, .char 'c', .optional 1, .star 2]

theorem Linear.combinators_recognize_interleaved : interleaved.Linear ∧
    ∃ (made : Array Fragment) (a : Arena) (L : ℕ → Language Char),
      (Script.run #[] interleaved).run .empty = .ok (made, a) ∧
      (∀ i ∈ [3, 4, 5], ∃ f, made[i]? = some f ∧ f.Recognizes a (L i)) ∧
      (Step.concatAll 5 [4, 3]).Recognizes made a (L 5 * (L 4 * L 3)) ∧
      (Step.freshStar 4).Recognizes made a (L 4)∗ := by
  refine ⟨by decide, ?_⟩
  have linear : interleaved.Linear := by decide
  have live : ∀ i ∈ [3, 4, 5], interleaved.Live i := by decide
  obtain ⟨made, a, L, run, known, several, single⟩ := Linear.combinators_recognize linear
  refine ⟨made, a, L, run, fun i hi => known i (live i hi), ?_, (single 4 (by decide)).2.1⟩
  simpa using (several 5 [4, 3] (by decide) (by decide)).1

end Script

end PatternAutomata
