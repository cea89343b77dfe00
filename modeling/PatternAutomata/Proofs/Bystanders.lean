import PatternAutomata.Proofs.Invariants

/-!
# States that a construction ignores

A construction of new states neither looks at the states that are there before it nor changes them.
If one of them is changed beforehand, the construction succeeds with the same result and leaves the
same arena behind, up to that change. `Build.Ignores` says this of the first `n` states; it is put
together along the steps of a construction, of which only edits have to be watched, and holds of
whatever expression is compiled (`Expr.compile_ignores`).
-/

namespace PatternAutomata

open Build

/-! ### Changes of different states -/

namespace Arena

variable {a b : Arena} {s t : StateId} {change change' : State → State}

/-- Arenas are the same when their states are. -/
lemma ext_state (size : a.size = b.size) (state : ∀ id < a.size, a.state id = b.state id) :
    a = b := by
  obtain ⟨xs⟩ := a
  obtain ⟨ys⟩ := b
  congr 1
  refine Array.ext size fun i hi hi' => ?_
  have same := state i hi
  simpa [Arena.state, hi, hi'] using same

/-- Changes of different states can be made in either order. -/
lemma modify_comm (ne : s ≠ t) :
    (a.modify s change).modify t change' = (a.modify t change').modify s change := by
  refine ext_state (by simp) fun id _ => ?_
  simp only [state_modify, size_modify]
  grind

/-- Two changes of one state are one change. -/
lemma modify_modify : (a.modify s change).modify s change' = a.modify s (change' ∘ change) := by
  refine ext_state (by simp) fun id _ => ?_
  simp only [state_modify, size_modify, Function.comp_apply]
  grind

/-- A change that leaves a state as it is changes nothing. -/
lemma modify_eq_self (same : change (a.state s) = a.state s) : a.modify s change = a := by
  refine ext_state (by simp) fun id _ => ?_
  rw [state_modify]
  grind

/-- A change can be made before or after a state is added. -/
lemma push_modify {new : State} (h : s < a.size) :
    (a.modify s change).push new = (a.push new).modify s change := by
  refine ext_state (by simp) fun id _ => ?_
  simp only [state_modify, state_push, size_modify, size_push]
  grind

end Arena

/-! ### Constructions -/

namespace Build

variable {α β : Type} {make : Build α} {next : α → Build β} {n : ℕ} {owns : α → Prop}
  {owns' : β → Prop} {s : StateId} {symbol : Symbol} {accepting : Bool}

/-- In every arena that has at least `n` states, a construction that succeeds takes none of them
away, and when one of them is changed beforehand it does the same. -/
def Ignores (make : Build α) (n : ℕ) (owns : α → Prop) : Prop :=
  ∀ ⦃a b : Arena⦄ ⦃r : α⦄, n ≤ a.size → make.run a = .ok (r, b) → n ≤ b.size ∧ owns r ∧
    ∀ id < n, ∀ change, make.run (a.modify id change) = .ok (r, b.modify id change)

lemma ignores_pure {r : α} (own : owns r) : (pure r : Build α).Ignores n owns := by
  intro a b q le h
  cases h
  exact ⟨le, own, fun _ _ _ => rfl⟩

lemma ignores_fail (e : Error) : (fail e : Build α).Ignores n owns := fun _ _ _ _ h => nomatch h

lemma Ignores.bind (first : make.Ignores n owns)
    (second : ∀ r, owns r → (next r).Ignores n owns') : (make >>= next).Ignores n owns' := by
  intro a c q le h
  obtain ⟨r, b, run, run'⟩ := exists_of_run_bind h
  obtain ⟨le', own, same⟩ := first le run
  obtain ⟨le'', own', same'⟩ := second r own le' run'
  refine ⟨le'', own', fun id hid change => ?_⟩
  rw [run_bind_of_run (same id hid change), same' id hid change]

/-- A state that is added is none of the first ones. -/
lemma addState_ignores : (addState accepting).Ignores n (n ≤ ·) := by
  intro a b id le h
  cases h
  refine ⟨?_, le, fun id hid change => ?_⟩
  · rw [Arena.size_push]
    exact le.trans (Nat.le_succ _)
  · rw [run_addState, Arena.push_modify (hid.trans_le le), Arena.size_modify]

/-- An edit of another state ignores the first ones. -/
lemma edit_ignores {change : State → State} (h : n ≤ s) :
    (edit s change).Ignores n fun _ => True := by
  intro a b r le run
  obtain ⟨there, rfl⟩ := lt_of_run_edit run
  refine ⟨by rwa [Arena.size_modify], trivial, fun id hid change' => ?_⟩
  rw [run_edit_of_lt (by rwa [Arena.size_modify]), Arena.modify_comm (hid.trans_le h).ne]

lemma connect_ignores {t : StateId} (h : n ≤ s) :
    (connect s symbol t).Ignores n fun _ => True := edit_ignores h

lemma setAccepting_ignores (h : n ≤ s) :
    (setAccepting s accepting).Ignores n fun _ => True := edit_ignores h

/-- A construction that is folded over some things ignores what each of its parts ignores. -/
lemma foldlM_ignores {op : α → β → Build α} {r : α} {qs : List β}
    (each : ∀ r q, owns r → owns' q → (op r q).Ignores n owns) (own : owns r)
    (others : ∀ q ∈ qs, owns' q) : (qs.foldlM op r).Ignores n owns := by
  induction qs generalizing r with
  | nil => exact ignores_pure own
  | cons q qs ih =>
    rw [List.forall_mem_cons] at others
    exact (each r q own others.1).bind fun r own => ih own others.2

end Build

/-! ### Fragments -/

/-- The boundaries of a fragment are none of the first states. -/
structure Fragment.Above (n : ℕ) (f : Fragment) : Prop where
  entry_le : n ≤ f.entry
  exit_le : n ≤ f.exit

namespace Fragment

variable {f g : Fragment} {fs : List Fragment} {n : ℕ}

lemma edge_ignores (symbol : Symbol) : (edge symbol).Ignores n (Above n) :=
  addState_ignores.bind fun _ entry => addState_ignores.bind fun _ exit =>
    (connect_ignores entry).bind fun _ _ => ignores_pure ⟨entry, exit⟩

lemma concat_ignores (hf : f.Above n) (hg : g.Above n) : (f.concat g).Ignores n (Above n) :=
  (setAccepting_ignores hf.exit_le).bind fun _ _ =>
    (setAccepting_ignores hg.exit_le).bind fun _ _ =>
      (connect_ignores hf.exit_le).bind fun _ _ => ignores_pure ⟨hf.entry_le, hg.exit_le⟩

lemma concatAll_ignores (hf : f.Above n) (hfs : ∀ g ∈ fs, g.Above n) :
    (f.concatAll fs).Ignores n (Above n) :=
  foldlM_ignores (fun _ _ => concat_ignores) hf hfs

lemma union_ignores (hf : f.Above n) (hg : g.Above n) : (f.union g).Ignores n (Above n) :=
  addState_ignores.bind fun _ entry => addState_ignores.bind fun _ exit =>
    (connect_ignores entry).bind fun _ _ => (connect_ignores entry).bind fun _ _ =>
      (setAccepting_ignores hf.exit_le).bind fun _ _ =>
        (setAccepting_ignores hg.exit_le).bind fun _ _ =>
          (connect_ignores hf.exit_le).bind fun _ _ => (connect_ignores hg.exit_le).bind fun _ _ =>
            ignores_pure ⟨entry, exit⟩

lemma star_ignores (hf : f.Above n) : f.star.Ignores n (Above n) :=
  (connect_ignores hf.entry_le).bind fun _ _ => (connect_ignores hf.exit_le).bind fun _ _ =>
    ignores_pure hf

lemma plus_ignores (hf : f.Above n) : f.plus.Ignores n (Above n) :=
  (connect_ignores hf.exit_le).bind fun _ _ => ignores_pure hf

lemma optional_ignores (hf : f.Above n) : f.optional.Ignores n (Above n) :=
  (connect_ignores hf.entry_le).bind fun _ _ => ignores_pure hf

end Fragment

/-! ### Expressions -/

namespace Expr

open Fragment

variable {n : ℕ}

mutual

/-- Compiling an expression ignores the states that are there, and makes a fragment of others. -/
theorem compile_ignores (e : Expr) : e.compile.Ignores n (Above n) := by
  cases e with
  | root flags body =>
    rw [compile]
    split
    · exact compile_ignores body
    · exact ignores_fail _
  | sequence items =>
    rw [compile]
    refine (compileAll_ignores items).bind fun fs above => ?_
    cases fs with
    | nil => exact ignores_fail _
    | cons f fs =>
      rw [List.forall_mem_cons] at above
      exact concatAll_ignores above.1 above.2
  | choice left right =>
    rw [compile]
    exact (compile_ignores left).bind fun f hf => (compile_ignores right).bind fun g hg =>
      union_ignores hf hg
  | repetition quantifier operand =>
    rw [compile]
    refine (compile_ignores operand).bind fun f hf => ?_
    split
    · exact star_ignores hf
    · exact plus_ignores hf
    · exact optional_ignores hf
    · exact ignores_fail _
  | char kind value =>
    cases kind with
    | simple => exact edge_ignores _
    | _ => exact ignores_fail _
  | group capturing body =>
    rw [compile]
    exact compile_ignores body
  | charClass text => exact ignores_fail _
  | assertion text => exact ignores_fail _
  | backreference text => exact ignores_fail _

/-- Compiling some expressions ignores the states that are there, and makes fragments of others. -/
theorem compileAll_ignores (es : List Expr) :
    (compileAll es).Ignores n fun fs => ∀ f ∈ fs, f.Above n := by
  cases es with
  | nil => exact ignores_pure (by simp)
  | cons e es =>
    rw [compileAll]
    refine (compile_ignores e).bind fun f hf => (compileAll_ignores es).bind fun fs hfs => ?_
    exact ignores_pure (List.forall_mem_cons.2 ⟨hf, hfs⟩)

end

end Expr

end PatternAutomata
