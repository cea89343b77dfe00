import PatternAutomata.Proofs.Territory

/-!
# Arenas that combinators leave behind

Joining two fragments, putting two fragments between new boundaries and repeating a fragment between
new boundaries each leave an arena behind. This file says what the edges and the accepting states of
these arenas are, and from the words of the operands it computes the crossings of the fragment that
has been made.
-/

namespace PatternAutomata

open scoped Computability

variable {a : Arena} {f g : Fragment} {T U : Set StateId} {L M : Crossings} {r s t u : StateId}

namespace Arena

/-! ### Edges and accepting states -/

/-- The arena with two fragments one after the other. -/
def joined (a : Arena) (f g : Fragment) : Arena :=
  ((a.mark f.exit false).mark g.exit true).connect f.exit .epsilon g.entry

/-- The arena with two fragments between new boundaries. -/
def united (a : Arena) (f g : Fragment) : Arena :=
  ((((a.enter f.entry g.entry).mark f.exit false).mark g.exit false).connect f.exit .epsilon
    (a.size + 1)).connect g.exit .epsilon (a.size + 1)

/-- The arena with a repeated fragment between new boundaries. -/
def starred (a : Arena) (f : Fragment) : Arena :=
  (((a.enter f.entry (a.size + 1)).mark f.exit false).connect f.exit .epsilon
    (a.size + 1)).connect (a.size + 1) .epsilon f.entry

@[simp] lemma size_joined : (a.joined f g).size = a.size := by simp [joined]

@[simp] lemma size_united : (a.united f g).size = a.size + 2 := by simp [united]

@[simp] lemma size_starred : (a.starred f).size = a.size + 2 := by simp [starred]

lemma state_joined (hf : s ≠ f.exit) (hg : s ≠ g.exit) : (a.joined f g).state s = a.state s := by
  rw [joined, state_connect_of_ne hf, state_mark_of_ne hg, state_mark_of_ne hf]

lemma state_united (h : s < a.size) (hf : s ≠ f.exit) (hg : s ≠ g.exit) :
    (a.united f g).state s = a.state s := by
  rw [united, state_connect_of_ne hg, state_connect_of_ne hf, state_mark_of_ne hg,
    state_mark_of_ne hf, state_enter_of_lt h]

lemma state_starred (h : s < a.size) (hf : s ≠ f.exit) : (a.starred f).state s = a.state s := by
  rw [starred, state_connect_of_ne (h.trans (Nat.lt_succ_self _)).ne, state_connect_of_ne hf,
    state_mark_of_ne hf, state_enter_of_lt h]

lemma mem_successors_joined (hf : f.exit < a.size) : u ∈ ((a.joined f g).state r).successors ↔
    u ∈ (a.state r).successors ∨ r = f.exit ∧ u = g.entry := by
  rw [joined, mem_successors_connect (by simpa), successors_mark, successors_mark]

lemma mem_successors_united (hf : f.exit < a.size + 2) (hg : g.exit < a.size + 2) :
    u ∈ ((a.united f g).state r).successors ↔ u ∈ (a.state r).successors ∨
      r = a.size ∧ (u = f.entry ∨ u = g.entry) ∨
        (r = f.exit ∨ r = g.exit) ∧ u = a.size + 1 := by
  rw [united, mem_successors_connect (by simpa), mem_successors_connect (by simpa),
    successors_mark, successors_mark, mem_successors_enter]
  tauto

lemma mem_successors_starred (hf : f.exit < a.size + 2) :
    u ∈ ((a.starred f).state r).successors ↔ u ∈ (a.state r).successors ∨
      r = a.size ∧ (u = f.entry ∨ u = a.size + 1) ∨ r = f.exit ∧ u = a.size + 1 ∨
        r = a.size + 1 ∧ u = f.entry := by
  rw [starred, mem_successors_connect (by simp), mem_successors_connect (by simpa),
    successors_mark, mem_successors_enter]
  tauto

lemma accepting_joined (hf : f.exit < a.size) (hg : g.exit < a.size) :
    ((a.joined f g).state s).accepting =
      if s = g.exit then true else if s = f.exit then false else (a.state s).accepting := by
  rw [joined, accepting_connect, accepting_mark (by simpa), accepting_mark hf]

lemma accepting_united (hf : f.exit < a.size + 2) (hg : g.exit < a.size + 2) :
    ((a.united f g).state s).accepting = if s = g.exit then false else if s = f.exit then false else
      if s = a.size + 1 then true else (a.state s).accepting := by
  rw [united, accepting_connect, accepting_connect, accepting_mark (by simpa),
    accepting_mark (by simpa), accepting_enter]

lemma accepting_starred (hf : f.exit < a.size + 2) : ((a.starred f).state s).accepting =
    if s = f.exit then false else if s = a.size + 1 then true else (a.state s).accepting := by
  rw [starred, accepting_connect, accepting_connect, accepting_mark (by simpa), accepting_enter]

/-! ### Crossings -/

/-- The crossings of two fragments one after the other. -/
lemma crossings_joined (own : f.Occupies a T L) (own' : g.Occupies a U M) (apart : Disjoint T U) :
    (a.joined f g).crossings ⟨f.entry, g.exit⟩ = L.concat M := by
  have hf : f.exit < a.size := own.lt_size _ own.exit_mem
  have away : ∀ {s t}, s ∈ T → t ∈ U → a.words s t = 0 := fun hs ht =>
    words_eq_zero own.closed hs (Set.disjoint_right.1 apart ht)
  have away' : ∀ {s t}, s ∈ U → t ∈ T → a.words s t = 0 := fun hs ht =>
    words_eq_zero own'.closed hs (Set.disjoint_left.1 apart ht)
  have words : ∀ s t, (a.joined f g).words s t =
      a.words s t + a.words s f.exit * a.words g.entry t := by
    intro s t
    rw [joined, words_connect_of_eq_zero (by simpa)]
    · simp only [words_mark]
    · simpa using away' own'.entry_mem own.exit_mem
  have ss : (a.joined f g).words f.entry f.entry = L .entry .entry := by
    rw [words, away' own'.entry_mem own.entry_mem, mul_zero, add_zero]
    exact own.words_eq .entry .entry
  have se : (a.joined f g).words f.entry g.exit = L.through * M.through := by
    rw [words, away own.entry_mem own'.exit_mem, zero_add]
    exact congrArg₂ (· * ·) (own.words_eq .entry .exit) (own'.words_eq .entry .exit)
  have es : (a.joined f g).words g.exit f.entry = 0 := by
    rw [words, away' own'.exit_mem own.entry_mem, away' own'.exit_mem own.exit_mem, zero_mul,
      add_zero]
  have ee : (a.joined f g).words g.exit g.exit = M .exit .exit := by
    rw [words, away' own'.exit_mem own.exit_mem, zero_mul, add_zero]
    exact own'.words_eq .exit .exit
  rw [crossings_eq_between, ss, se, es, ee]
  rfl

/-- Nothing leads from the entry of a fragment to states that are new. -/
lemma words_to_new (own : f.Occupies a T L) (h : a.size ≤ t) : a.words f.entry t = 0 := by
  refine words_eq_zero own.closed own.entry_mem fun ht => ?_
  exact absurd (own.lt_size t ht) (Nat.not_lt.2 h)

/-- Nothing leads from states that are new to the exit of a fragment. -/
lemma words_from_new (own : f.Occupies a T L) (h : a.size ≤ s) : a.words s f.exit = 0 := by
  have ne : s ≠ f.exit := ((own.lt_size _ own.exit_mem).trans_le h).ne'
  rw [words_of_size_le h, if_neg ne]

/-- The crossings of two fragments between new boundaries. -/
lemma crossings_united (own : f.Occupies a T L) (own' : g.Occupies a U M) (apart : Disjoint T U) :
    (a.united f g).crossings ⟨a.size, a.size + 1⟩ = L.union M := by
  have hf : f.exit < a.size + 2 := Nat.lt_add_right 2 (own.lt_size _ own.exit_mem)
  have hg : g.exit < a.size + 2 := Nat.lt_add_right 2 (own'.lt_size _ own'.exit_mem)
  have fg : a.words f.entry g.exit = 0 :=
    words_eq_zero own.closed own.entry_mem (Set.disjoint_right.1 apart own'.exit_mem)
  have gf : a.words g.entry f.exit = 0 :=
    words_eq_zero own'.closed own'.entry_mem (Set.disjoint_left.1 apart own.exit_mem)
  have hL : a.words f.entry f.exit = L.through := own.words_eq .entry .exit
  have hM : a.words g.entry g.exit = M.through := own'.words_eq .entry .exit
  set e := a.enter f.entry g.entry with he
  have enter : ∀ s t, e.words s t =
      a.words s t + a.words s a.size * (a.words f.entry t + a.words g.entry t) := fun s t =>
    words_enter (words_to_new own le_rfl) (words_to_new own' le_rfl)
  have toExit : e.words a.size f.exit = L.through := by
    simp [enter, words_from_new own, words_of_size_le, gf, hL]
  have toExit' : e.words a.size g.exit = M.through := by
    simp [enter, words_from_new own', words_of_size_le, fg, hM]
  have back : e.words (a.size + 1) f.exit = 0 := by
    simp [enter, words_from_new own, words_of_size_le]
  have back' : e.words (a.size + 1) g.exit = 0 := by
    simp [enter, words_from_new own', words_of_size_le]
  have words : ∀ s t, (a.united f g).words s t =
      e.words s t + (e.words s f.exit + e.words s g.exit) * e.words (a.size + 1) t := by
    intro s t
    rw [united, words_connect_connect (by simpa) (by simpa) (by simpa) (by simpa)]
    simp only [words_mark, he]
  have ss : (a.united f g).words a.size a.size = 1 := by
    simp [words, enter, words_to_new own, words_to_new own', words_of_size_le]
  have se : (a.united f g).words a.size (a.size + 1) = L.through + M.through := by
    rw [words, toExit, toExit']
    simp [enter, words_to_new own, words_to_new own', words_of_size_le]
  have es : (a.united f g).words (a.size + 1) a.size = 0 := by
    rw [words, back, back', add_zero, zero_mul, add_zero]
    simp [enter, words_of_size_le]
  have ee : (a.united f g).words (a.size + 1) (a.size + 1) = 1 := by
    rw [words, back, back', add_zero, zero_mul, add_zero]
    simp [enter, words_of_size_le]
  rw [crossings_eq_between, ss, se, es, ee]
  rfl

/-- The crossings of a repeated fragment between new boundaries. -/
lemma crossings_starred (own : f.Occupies a T L) :
    (a.starred f).crossings ⟨a.size, a.size + 1⟩ = L.freshStar := by
  have hf : f.exit < a.size + 2 := Nat.lt_add_right 2 (own.lt_size _ own.exit_mem)
  have hL : a.words f.entry f.exit = L.through := own.words_eq .entry .exit
  set e := a.enter f.entry (a.size + 1) with he
  have enter : ∀ s t, e.words s t =
      a.words s t + a.words s a.size * (a.words f.entry t + a.words (a.size + 1) t) := fun s t =>
    words_enter (words_to_new own le_rfl) (by simp [words_of_size_le])
  have back : e.words (a.size + 1) f.exit = 0 := by
    simp [enter, words_from_new own, words_of_size_le]
  set c := (e.mark f.exit false).connect f.exit .epsilon (a.size + 1) with hc
  have leave : ∀ s t, c.words s t = e.words s t + e.words s f.exit * e.words (a.size + 1) t := by
    intro s t
    rw [hc, words_connect_of_eq_zero (by simpa [he]) (by simpa)]
    simp only [words_mark]
  have loop : ∀ s t, (a.starred f).words s t =
      c.words s t + c.words s (a.size + 1) * (c.words f.entry (a.size + 1))∗ *
        c.words f.entry t := fun s t => words_connect (by simp)
  -- The words of the parts of a way through the new boundaries.
  have entryExit : c.words a.size (a.size + 1) = 1 + L.through := by
    simp [leave, enter, words_to_new own, words_from_new own, words_of_size_le, hL]
  have entryEntry : c.words a.size a.size = 1 := by
    simp [leave, enter, words_to_new own, words_of_size_le]
  have exitExit : c.words (a.size + 1) (a.size + 1) = 1 := by
    rw [leave, back, zero_mul, add_zero]
    simp [enter, words_of_size_le]
  have exitEntry : c.words (a.size + 1) a.size = 0 := by
    rw [leave, back, zero_mul, add_zero]
    simp [enter, words_of_size_le]
  have through : c.words f.entry (a.size + 1) = L.through := by
    simp [leave, enter, words_to_new own, words_of_size_le, hL]
  have never : c.words f.entry a.size = 0 := by
    simp [leave, enter, words_to_new own, words_of_size_le]
  have ss : (a.starred f).words a.size a.size = 1 := by
    rw [loop, entryEntry, never, mul_zero, add_zero]
  have se : (a.starred f).words a.size (a.size + 1) = L.through∗ :=
    calc (a.starred f).words a.size (a.size + 1)
      _ = (1 + L.through) + (1 + L.through) * L.through∗ * L.through := by
        rw [loop, entryExit, through]
      _ = (1 + L.through) * (1 + L.through∗ * L.through) := by rw [mul_add, mul_one, mul_assoc]
      _ = L.through∗ + L.through * L.through∗ := by rw [one_add_kstar_mul, add_mul, one_mul]
      _ = L.through∗ := add_eq_left_iff_le.2 mul_kstar_le_kstar
  have es : (a.starred f).words (a.size + 1) a.size = 0 := by
    rw [loop, exitEntry, never, mul_zero, add_zero]
  have ee : (a.starred f).words (a.size + 1) (a.size + 1) = L.through∗ := by
    rw [loop, exitExit, through, one_mul, one_add_kstar_mul]
  rw [crossings_eq_between, ss, se, es, ee]
  rfl

end Arena

end PatternAutomata
