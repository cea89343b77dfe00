import PatternAutomata.Proofs.Rewiring

/-!
# Combinators of fragments

Each combinator uses up the territories of its operands and makes a fragment whose crossings are
combined from theirs. An edge within a fragment changes its crossings in place
(`Fragment.Occupies.connect`), and a combinator of two fragments is folded over several
(`Fragment.Combines.foldlM`).
-/

namespace PatternAutomata

open scoped Computability

open Arena Build

variable {a b : Arena} {f g : Fragment} {fs : List Fragment} {T U : Set StateId}
  {L M : Crossings} {Ls : List Crossings} {s : StateId}

namespace Fragment

/-! ### One after the other -/

/-- Two fragments are joined when their exits are there. -/
lemma run_concat (hf : f.exit < a.size) (hg : g.exit < a.size) :
    (f.concat g).run a = .ok (⟨f.entry, g.exit⟩, a.joined f g) := by
  rw [Fragment.concat, run_bind_of_run (run_setAccepting hf),
    run_bind_of_run (run_setAccepting (by simpa)), run_bind_of_run (run_connect (by simpa))]
  rfl

/-- Two fragments are joined by an edge. -/
lemma concat_yields (own : f.Occupies a T L) (own' : g.Occupies a U M) (apart : Disjoint T U) :
    (f.concat g).Yields a (T ∪ U) (·.Occupies · · (L.concat M)) := by
  have hf := own.lt_size _ own.exit_mem
  have hg := own'.lt_size _ own'.exit_mem
  have left : ∀ {s}, s ∈ T → s ∉ U := fun hs => Set.disjoint_left.1 apart hs
  have right : ∀ {s}, s ∈ U → s ∉ T := fun hs => Set.disjoint_right.1 apart hs
  have run := run_concat hf hg
  have successors : ∀ r u, u ∈ ((a.joined f g).state r).successors ↔
      u ∈ (a.state r).successors ∨ r = f.exit ∧ u = g.entry := fun r u => mem_successors_joined hf
  have reach : ∀ {s t}, a.Reach s t → (a.joined f g).Reach s t :=
    Reach.mono fun r u hu => (successors r u).2 (.inl hu)
  have joint : (a.joined f g).Reach f.exit g.entry :=
    reach_of_mem_successors ((successors _ _).2 (.inr ⟨rfl, rfl⟩))
  refine ⟨_, _, run, ⟨size_joined.ge, fun s _ hs => ?_⟩, ?_⟩
  · apply state_joined
    · rintro rfl
      exact hs (.inl own.exit_mem)
    · rintro rfl
      exact hs (.inr own'.exit_mem)
  rw [added_of_size_eq size_joined, Set.union_empty]
  exact
  { entry_mem := .inl own.entry_mem
    exit_mem := .inr own'.exit_mem
    entry_ne_exit := fun h => left own.entry_mem (h ▸ own'.exit_mem)
    lt_size := by
      rw [size_joined]
      rintro s (hs | hs)
      · exact own.lt_size s hs
      · exact own'.lt_size s hs
    closed := by
      intro s hs t ht
      rcases (successors s t).1 ht with old | ⟨-, rfl⟩
      · exact hs.imp (own.closed s · t old) (own'.closed s · t old)
      · exact .inr own'.entry_mem
    accepting_iff := by
      intro s hs
      rw [accepting_joined hf hg]
      rcases hs with hs | hs
      · have ne : s ≠ g.exit := fun h => left hs (h ▸ own'.exit_mem)
        rw [if_neg ne]
        split_ifs with h
        · simp [ne]
        · simp [own.accepting_eq_false hs h, ne]
      · have ne : s ≠ f.exit := fun h => right hs (h ▸ own.exit_mem)
        rw [if_neg ne]
        split_ifs with h
        · simp [h]
        · rw [own'.accepting_iff s hs]
    reached := by
      rintro s (hs | hs)
      · exact reach (own.reached s hs)
      · exact ((reach (own.leads _ own.entry_mem)).trans joint).trans (reach (own'.reached s hs))
    leads := by
      rintro s (hs | hs)
      · exact ((reach (own.leads s hs)).trans joint).trans (reach (own'.leads _ own'.entry_mem))
      · exact reach (own'.leads s hs)
    crossings_eq := crossings_joined own own' apart }

/-! ### New boundaries -/

/-- New boundaries own a territory that does not accept and lies between them. -/
lemma occupies_of_boundaries (size : b.size = a.size + 2) (lt_size : ∀ s ∈ T, s < a.size)
    (closed : a.ClosedUnder T) (edges : ∀ r, ∀ u ∈ (b.state r).successors,
      u ∈ (a.state r).successors ∨ u ∈ T ∨ u = a.size + 1)
    (within : ∀ s ∈ T, (b.state s).accepting = false)
    (entry : (b.state a.size).accepting = false) (exit : (b.state (a.size + 1)).accepting = true)
    (through : b.Reach a.size (a.size + 1)) (reached : ∀ s ∈ T, b.Reach a.size s)
    (leads : ∀ s ∈ T, b.Reach s (a.size + 1)) (crossings : b.crossings ⟨a.size, a.size + 1⟩ = L) :
    Occupies ⟨a.size, a.size + 1⟩ b (T ∪ a.added b) L := by
  have cases : ∀ s : ℕ, s ∈ a.added b → s = a.size ∨ s = a.size + 1 := by
    intro s hs
    simp only [added, size, Set.mem_Ico] at hs
    omega
  have entry_mem : a.size ∈ a.added b := by simp [added, size]
  have exit_mem : a.size + 1 ∈ a.added b := by simp [added, size]
  exact
  { entry_mem := .inr entry_mem
    exit_mem := .inr exit_mem
    entry_ne_exit := (Nat.lt_succ_self _).ne
    lt_size := by
      rintro s (hs | hs)
      · rw [size]
        exact Nat.lt_add_right 2 (lt_size s hs)
      · exact hs.2
    closed := by
      intro s hs t ht
      rcases edges s t ht with old | inside | rfl
      · rcases hs with hs | hs
        · exact .inl (closed s hs t old)
        · rw [successors_of_size_le hs.1] at old
          cases old
      · exact .inl inside
      · exact .inr exit_mem
    accepting_iff := by
      rintro s (hs | hs)
      · have ne : s ≠ a.size + 1 := ((lt_size s hs).trans (Nat.lt_succ_self _)).ne
        simp [within s hs, ne]
      · rcases cases s hs with rfl | rfl
        · simp [entry]
        · simp [exit]
    reached := by
      rintro s (hs | hs)
      · exact reached s hs
      · rcases cases s hs with rfl | rfl
        · exact .refl
        · exact through
    leads := by
      rintro s (hs | hs)
      · exact leads s hs
      · rcases cases s hs with rfl | rfl
        · exact through
        · exact .refl
    crossings_eq := crossings }

/-- Two fragments are put between new boundaries. -/
lemma union_yields (own : f.Occupies a T L) (own' : g.Occupies a U M) (apart : Disjoint T U) :
    (f.union g).Yields a (T ∪ U) (·.Occupies · · (L.union M)) := by
  have hf : f.exit < a.size := own.lt_size _ own.exit_mem
  have hg : g.exit < a.size := own'.lt_size _ own'.exit_mem
  have hf' : f.exit < a.size + 2 := Nat.lt_add_right 2 hf
  have hg' : g.exit < a.size + 2 := Nat.lt_add_right 2 hg
  have run : (f.union g).run a = .ok (⟨a.size, a.size + 1⟩, a.united f g) := by
    rw [Fragment.union, run_addStates, run_bind_of_run (run_connect (by simp)),
      run_bind_of_run (run_connect (by simp)), run_bind_of_run (run_setAccepting (by simpa)),
      run_bind_of_run (run_setAccepting (by simpa)), run_bind_of_run (run_connect (by simpa)),
      run_bind_of_run (run_connect (by simpa))]
    rfl
  have successors : ∀ r u, u ∈ ((a.united f g).state r).successors ↔
      u ∈ (a.state r).successors ∨ r = a.size ∧ (u = f.entry ∨ u = g.entry) ∨
        (r = f.exit ∨ r = g.exit) ∧ u = a.size + 1 := fun r u => mem_successors_united hf' hg'
  have accepting : ∀ s, ((a.united f g).state s).accepting = if s = g.exit then false else
      if s = f.exit then false else if s = a.size + 1 then true else (a.state s).accepting :=
    fun s => accepting_united hf' hg'
  have reach : ∀ {s t}, a.Reach s t → (a.united f g).Reach s t :=
    Reach.mono fun r u hu => (successors r u).2 (.inl hu)
  have enterF : (a.united f g).Reach a.size f.entry :=
    reach_of_mem_successors (by simp [successors])
  have enterG : (a.united f g).Reach a.size g.entry :=
    reach_of_mem_successors (by simp [successors])
  have leaveF : (a.united f g).Reach f.exit (a.size + 1) :=
    reach_of_mem_successors (by simp [successors])
  have leaveG : (a.united f g).Reach g.exit (a.size + 1) :=
    reach_of_mem_successors (by simp [successors])
  have lt_size : ∀ s ∈ T ∪ U, s < a.size := by
    rintro s (hs | hs)
    · exact own.lt_size s hs
    · exact own'.lt_size s hs
  refine ⟨_, _, run, ⟨by simp, fun s hs hTU => ?_⟩, ?_⟩
  · apply state_united hs
    · rintro rfl
      exact hTU (.inl own.exit_mem)
    · rintro rfl
      exact hTU (.inr own'.exit_mem)
  apply occupies_of_boundaries size_united lt_size (own.closed.union own'.closed)
  case edges =>
    intro r u hu
    rcases (successors r u).1 hu with old | ⟨-, rfl | rfl⟩ | ⟨-, rfl⟩
    · exact .inl old
    · exact .inr (.inl (.inl own.entry_mem))
    · exact .inr (.inl (.inr own'.entry_mem))
    · exact .inr (.inr rfl)
  case within =>
    intro s hs
    have old : s ≠ a.size + 1 := ((lt_size s hs).trans (Nat.lt_succ_self _)).ne
    rw [accepting, if_neg old]
    split_ifs with h h'
    · rfl
    · rfl
    · rcases hs with hs | hs
      · exact own.accepting_eq_false hs h'
      · exact own'.accepting_eq_false hs h
  case entry => simp [accepting, state_of_size_le, State.new]
  case exit =>
    have neF : a.size + 1 ≠ f.exit := (hf.trans (Nat.lt_succ_self _)).ne'
    have neG : a.size + 1 ≠ g.exit := (hg.trans (Nat.lt_succ_self _)).ne'
    simp [accepting, neF, neG]
  case through => exact (enterF.trans (reach (own.leads _ own.entry_mem))).trans leaveF
  case reached =>
    rintro s (hs | hs)
    · exact enterF.trans (reach (own.reached s hs))
    · exact enterG.trans (reach (own'.reached s hs))
  case leads =>
    rintro s (hs | hs)
    · exact (reach (own.leads s hs)).trans leaveF
    · exact (reach (own'.leads s hs)).trans leaveG
  case crossings => exact crossings_united own own' apart

/-- A fragment is repeated between new boundaries. -/
lemma freshStar_yields (own : f.Occupies a T L) :
    f.freshStar.Yields a T (·.Occupies · · L.freshStar) := by
  have hf : f.exit < a.size := own.lt_size _ own.exit_mem
  have hf' : f.exit < a.size + 2 := Nat.lt_add_right 2 hf
  have run : f.freshStar.run a = .ok (⟨a.size, a.size + 1⟩, a.starred f) := by
    rw [Fragment.freshStar, run_addStates, run_bind_of_run (run_connect (by simp)),
      run_bind_of_run (run_connect (by simp)), run_bind_of_run (run_setAccepting (by simpa)),
      run_bind_of_run (run_connect (by simpa)), run_bind_of_run (run_connect (by simp))]
    rfl
  have successors : ∀ r u, u ∈ ((a.starred f).state r).successors ↔
      u ∈ (a.state r).successors ∨ r = a.size ∧ (u = f.entry ∨ u = a.size + 1) ∨
        r = f.exit ∧ u = a.size + 1 ∨ r = a.size + 1 ∧ u = f.entry :=
    fun r u => mem_successors_starred hf'
  have accepting : ∀ s, ((a.starred f).state s).accepting =
      if s = f.exit then false else if s = a.size + 1 then true else (a.state s).accepting :=
    fun s => accepting_starred hf'
  have reach : ∀ {s t}, a.Reach s t → (a.starred f).Reach s t :=
    Reach.mono fun r u hu => (successors r u).2 (.inl hu)
  have enter : (a.starred f).Reach a.size f.entry := reach_of_mem_successors (by simp [successors])
  have leave : (a.starred f).Reach f.exit (a.size + 1) :=
    reach_of_mem_successors (by simp [successors])
  refine ⟨_, _, run, ⟨by simp, fun s hs hT => ?_⟩, ?_⟩
  · apply state_starred hs
    rintro rfl
    exact hT own.exit_mem
  apply occupies_of_boundaries size_starred own.lt_size own.closed
  case edges =>
    intro r u hu
    rcases (successors r u).1 hu with old | ⟨-, rfl | rfl⟩ | ⟨-, rfl⟩ | ⟨-, rfl⟩
    · exact .inl old
    · exact .inr (.inl own.entry_mem)
    · exact .inr (.inr rfl)
    · exact .inr (.inr rfl)
    · exact .inr (.inl own.entry_mem)
  case within =>
    intro s hs
    have old : s ≠ a.size + 1 := ((own.lt_size s hs).trans (Nat.lt_succ_self _)).ne
    rw [accepting, if_neg old]
    split_ifs with h
    · rfl
    · exact own.accepting_eq_false hs h
  case entry => simp [accepting, state_of_size_le, State.new]
  case exit => simp [accepting, (hf.trans (Nat.lt_succ_self _)).ne']
  case through => exact reach_of_mem_successors (by simp [successors])
  case reached => exact fun s hs => enter.trans (reach (own.reached s hs))
  case leads => exact fun s hs => (reach (own.leads s hs)).trans leave
  case crossings => exact crossings_starred own

/-- An edge between new boundaries can always be made. -/
lemma run_edge (a : Arena) (symbol : Symbol) : (edge symbol).run a =
    .ok (⟨a.size, a.size + 1⟩, a.widen.connect a.size symbol (a.size + 1)) := by
  rw [edge, run_addStates, run_bind_of_run (run_connect (by simp))]
  rfl

/-- An edge is put between new boundaries. -/
lemma edge_yields (a : Arena) (symbol : Symbol) :
    (edge symbol).Yields a ∅ (·.Occupies · · (.direct symbol.words)) := by
  have run := run_edge a symbol
  set b := a.widen.connect a.size symbol (a.size + 1) with hb
  have successors : ∀ r u, u ∈ (b.state r).successors ↔
      u ∈ (a.state r).successors ∨ r = a.size ∧ u = a.size + 1 := by
    intro r u
    rw [hb, mem_successors_connect (by simp), successors_widen]
  have accepting : ∀ s, (b.state s).accepting =
      if s = a.size + 1 then true else (a.state s).accepting := by
    intro s
    rw [hb, accepting_connect, accepting_widen]
  have targets : ∀ label u, u ∈ (b.state a.size).targets label ↔
      label = symbol ∧ u = a.size + 1 := by
    intro label u
    rw [hb, mem_targets_connect (by simp)]
    simp [state_of_size_le]
  refine ⟨_, _, run, ⟨by simp [hb], fun s hs _ => ?_⟩, ?_⟩
  · rw [hb, state_connect_of_ne hs.ne, state_widen_of_lt hs]
  apply occupies_of_boundaries (by simp [hb]) (by simp) (by simp [ClosedUnder])
  case edges =>
    intro r u hu
    exact ((successors r u).1 hu).imp id fun h => .inr h.2
  case within => simp
  case entry => simp [accepting, state_of_size_le, State.new]
  case exit => simp [accepting]
  case through => exact reach_of_mem_successors (by simp [successors])
  case reached => simp
  case leads => simp
  case crossings =>
    have isolated : (b.state (a.size + 1)).successors = [] := by
      refine List.eq_nil_iff_forall_not_mem.2 fun u hu => ?_
      simp [successors, successors_of_size_le] at hu
    have fromExit : ∀ t, b.words (a.size + 1) t = if a.size + 1 = t then 1 else 0 := fun t =>
      words_of_successors_eq_nil isolated
    have stop : ∀ {w t}, b.Path (a.size + 1) w t → w = [] ∧ t = a.size + 1 := by
      intro w t path
      rw [← mem_words, fromExit] at path
      split at path
      · rename_i h
        exact ⟨path, h.symm⟩
      · cases path
    have step : ∀ {w t}, b.Path a.size w t → w = [] ∧ t = a.size ∨
        w ∈ symbol.words ∧ t = a.size + 1 := by
      intro w t path
      cases path with
      | refl => exact .inl ⟨rfl, rfl⟩
      | epsilon edge rest =>
        obtain ⟨rfl, rfl⟩ := (targets _ _).1 edge
        exact .inr (stop rest)
      | char edge rest =>
        obtain ⟨rfl, rfl⟩ := (targets _ _).1 edge
        obtain ⟨rfl, rfl⟩ := stop rest
        exact .inr ⟨rfl, rfl⟩
    have ss : b.words a.size a.size = 1 := by
      refine le_antisymm (fun w path => ?_) (b.one_le_words_self _)
      rcases step path with ⟨rfl, -⟩ | ⟨-, h⟩
      · rfl
      · exact absurd h (Nat.lt_succ_self _).ne
    have se : b.words a.size (a.size + 1) = symbol.words := by
      refine le_antisymm (fun w path => ?_) ?_
      · rcases step path with ⟨-, h⟩ | ⟨h, -⟩
        · exact absurd h (Nat.lt_succ_self _).ne'
        · exact h
      · cases symbol with
        | epsilon =>
          rintro w rfl
          exact .epsilon ((targets _ _).2 ⟨rfl, rfl⟩) (.refl _)
        | char c =>
          rintro w rfl
          exact .char ((targets _ _).2 ⟨rfl, rfl⟩) (.refl _)
    have es : b.words (a.size + 1) a.size = 0 := by
      rw [fromExit, if_neg (Nat.lt_succ_self _).ne']
    have ee : b.words (a.size + 1) (a.size + 1) = 1 := by rw [fromExit, if_pos rfl]
    rw [crossings_eq_between, ss, se, es, ee]
    rfl

/-! ### Edges within a fragment -/

/-- An edge between the boundaries of a fragment. -/
lemma Occupies.connect (own : f.Occupies a T L) (X Y : Side) :
    f.Occupies (a.connect (f.side X) .epsilon (f.side Y)) T fun V W =>
      L V W + L V X * (L Y X)∗ * L Y W := by
  have hX : f.side X < a.size := own.lt_size _ (own.side_mem X)
  have successors : ∀ r u, u ∈ ((a.connect (f.side X) .epsilon (f.side Y)).state r).successors ↔
      u ∈ (a.state r).successors ∨ r = f.side X ∧ u = f.side Y := fun r u =>
    mem_successors_connect hX
  have reach : ∀ {s t}, a.Reach s t → (a.connect (f.side X) .epsilon (f.side Y)).Reach s t :=
    Reach.mono fun r u hu => (successors r u).2 (.inl hu)
  exact
  { entry_mem := own.entry_mem
    exit_mem := own.exit_mem
    entry_ne_exit := own.entry_ne_exit
    lt_size := by
      rw [size_connect]
      exact own.lt_size
    closed := by
      intro s hs t ht
      rcases (successors s t).1 ht with old | ⟨-, rfl⟩
      · exact own.closed s hs t old
      · exact own.side_mem Y
    accepting_iff := by
      intro s hs
      rw [accepting_connect, own.accepting_iff s hs]
    reached := fun s hs => reach (own.reached s hs)
    leads := fun s hs => reach (own.leads s hs)
    crossings_eq := by
      funext V W
      rw [← own.words_eq, ← own.words_eq, ← own.words_eq, ← own.words_eq]
      exact words_connect hX }

/-- Adding an edge between the boundaries of a fragment. -/
lemma connect_yields (own : f.Occupies a T L) (X Y : Side) :
    Yields (do Build.connect (f.side X) .epsilon (f.side Y); return f) a T
      (·.Occupies · · fun V W => L V W + L V X * (L Y X)∗ * L Y W) := by
  have hX : f.side X < a.size := own.lt_size _ (own.side_mem X)
  refine ⟨f, a.connect (f.side X) .epsilon (f.side Y), ?_, ⟨by simp, fun s _ hs => ?_⟩, ?_⟩
  · rw [run_bind_of_run (run_connect hX)]
    rfl
  · apply state_connect_of_ne
    rintro rfl
    exact hs (own.side_mem X)
  · rw [added_of_size_eq size_connect, Set.union_empty]
    exact own.connect X Y

/-- A loop within a fragment. -/
lemma plus_yields (own : f.Occupies a T L) : f.plus.Yields a T (·.Occupies · · L.plus) :=
  connect_yields own .exit .entry

/-- A skip within a fragment. -/
lemma optional_yields (own : f.Occupies a T L) :
    f.optional.Yields a T (·.Occupies · · L.optional) :=
  connect_yields own .entry .exit

/-- A skip and a loop within a fragment. -/
lemma star_yields (own : f.Occupies a T L) : f.star.Yields a T (·.Occupies · · L.star) := by
  have parts : f.star = (f.optional >>= plus) := by
    simp [Fragment.star, Fragment.optional, Fragment.plus]
  rw [parts, ← Crossings.plus_optional own.one_le, ← Set.union_empty T]
  refine (optional_yields own).bind fun g b _ own' => ?_
  rw [Set.union_empty]
  exact plus_yields own'

/-! ### Several fragments -/

/-- A combinator of two fragments uses up their territories and combines their crossings. -/
def Combines (op : Fragment → Fragment → Build Fragment)
    (combine : Crossings → Crossings → Crossings) : Prop :=
  ∀ {a : Arena} {f g : Fragment} {T U : Set StateId} {L M : Crossings}, f.Occupies a T L →
    g.Occupies a U M → Disjoint T U → (op f g).Yields a (T ∪ U) (·.Occupies · · (combine L M))

/-- A combinator of two fragments is folded over several. -/
lemma Combines.foldlM {op : Fragment → Fragment → Build Fragment}
    {combine : Crossings → Crossings → Crossings} (combines : Combines op combine)
    (own : f.Occupies a T L) (others : OccupyAll fs a U Ls) (apart : Disjoint T U) :
    Yields (fs.foldlM op f) a (T ∪ U) (·.Occupies · · (Ls.foldl combine L)) := by
  induction fs generalizing a f T U L Ls with
  | nil =>
    cases others
    rw [Set.union_empty]
    exact yields_pure own
  | cons g fs ih =>
    cases others with
    | @cons _ _ _ T' U' M Ms own' others apart' =>
      rw [Set.disjoint_union_right] at apart
      have outside : Disjoint (T ∪ T') U' := Set.disjoint_union_left.2 ⟨apart.2, apart'⟩
      rw [List.foldlM_cons, List.foldl_cons, ← Set.union_assoc]
      refine (combines own own' apart.1).bind fun h b framed made => ?_
      have fresh : Disjoint (T ∪ T' ∪ a.added b) U' :=
        Set.disjoint_union_left.2 ⟨outside, disjoint_added others.lt_size⟩
      exact ih made (framed.occupyAll others outside) fresh

/-- Several fragments, one after the other. -/
lemma concatAll_yields (own : f.Occupies a T L) (others : OccupyAll fs a U Ls)
    (apart : Disjoint T U) :
    (f.concatAll fs).Yields a (T ∪ U) (·.Occupies · · (.sequence (L :: Ls))) := by
  rw [← Crossings.foldl_concat]
  exact Combines.foldlM concat_yields own others apart

end Fragment

end PatternAutomata
