import PatternAutomata.Proofs.Bystanders
import PatternAutomata.Proofs.Regular
import PatternAutomata.Proofs.Rendering

/-!
# Quantifiers that are stacked

A repetition adds edges at the boundaries of its operand and nothing else: an edge that skips the
operand, one that leads back, or both. An edge that is there already is not added again, and the two
edges start at different states, so that their order does not matter. Of quantifiers that are put on
top of one another only what they add together is left (`Arena.repeated`), which is what one
quantifier adds (`QuantifierKind.collapse`). Groups and sequences of one item in between make no
difference, and neither does greediness.
-/

namespace PatternAutomata

open Build

namespace State

/-- An edge that is there already is not added again. -/
lemma connect_of_mem_targets {s : State} {symbol : Symbol} {t : StateId}
    (h : t ∈ s.targets symbol) : s.connect symbol t = s := by
  obtain ⟨edges, accepting⟩ := s
  have same : addTarget symbol t edges = edges := by
    change t ∈ (edges.lookup symbol).getD [] at h
    induction edges with
    | nil => cases h
    | cons edge edges ih => grind [addTarget]
  rw [connect, same]

/-- An edge is added once, however often it is added. -/
lemma connect_connect (s : State) (symbol : Symbol) (t : StateId) :
    (s.connect symbol t).connect symbol t = s.connect symbol t :=
  connect_of_mem_targets (mem_targets_connect.2 (.inr ⟨rfl, rfl⟩))

end State

/-! ### What quantifiers add -/

namespace Arena

variable {a : Arena} {s t : StateId} {symbol : Symbol}

/-- An edge is added once, however often it is added. -/
lemma connect_connect : (a.connect s symbol t).connect s symbol t = a.connect s symbol t := by
  rw [connect, connect, modify_modify]
  congr 1
  exact funext fun state => state.connect_connect symbol t

/-- The arena in which a fragment has been repeated, with an edge that skips it, one that leads
back, or both. -/
def repeated (a : Arena) (f : Fragment) (skip loop : Bool) : Arena :=
  let skipped := if skip then a.connect f.entry .epsilon f.exit else a
  if loop then skipped.connect f.exit .epsilon f.entry else skipped

@[simp] lemma size_repeated {f : Fragment} {skip loop : Bool} :
    (a.repeated f skip loop).size = a.size := by
  cases skip <;> cases loop <;> simp [repeated]

variable {f : Fragment}

/-- The edge that skips a fragment can be added at any time. -/
lemma repeated_skip (ne : f.entry ≠ f.exit) (skip loop : Bool) :
    (a.repeated f skip loop).connect f.entry .epsilon f.exit = a.repeated f true loop := by
  have once : (a.repeated f skip false).connect f.entry .epsilon f.exit =
      a.repeated f true false := by
    cases skip
    · rfl
    · exact connect_connect
  cases loop
  · exact once
  · -- the edge that leads back is at another state
    exact (modify_comm ne.symm).trans (congrArg (·.connect f.exit .epsilon f.entry) once)

/-- The edge that leads back can be added at any time. -/
lemma repeated_loop (skip loop : Bool) :
    (a.repeated f skip loop).connect f.exit .epsilon f.entry = a.repeated f skip true := by
  cases loop
  · rfl
  · exact connect_connect

end Arena

namespace QuantifierKind

/-- Whether repetitions of a kind may lead back to the beginning of what they repeat. -/
def loops : QuantifierKind → Bool
  | zeroOrMore => true
  | oneOrMore => true
  | _ => false

/-- The one kind of repetition that does what several do together. -/
def collapse (kinds : List QuantifierKind) : QuantifierKind :=
  if ∀ kind ∈ kinds, kind = oneOrMore then oneOrMore
  else if ∀ kind ∈ kinds, kind = zeroOrOne then zeroOrOne
  else zeroOrMore

lemma isSupported_collapse (kinds : List QuantifierKind) : (collapse kinds).isSupported = true := by
  unfold collapse
  split_ifs <;> rfl

variable {kind : QuantifierKind} {kinds : List QuantifierKind}

lemma skips_eq_true_iff (supported : kind.isSupported = true) :
    kind.skips = true ↔ kind ≠ oneOrMore := by
  cases kind <;> simp_all [skips, isSupported]

lemma loops_eq_true_iff (supported : kind.isSupported = true) :
    kind.loops = true ↔ kind ≠ zeroOrOne := by
  cases kind <;> simp_all [loops, isSupported]

/-- Several repetitions may skip when one of them may. -/
lemma skips_collapse (supported : ∀ kind ∈ kinds, kind.isSupported = true) :
    (collapse kinds).skips = kinds.any skips := by
  have some : kinds.any skips = true ↔ ¬∀ kind ∈ kinds, kind = oneOrMore := by
    simp only [List.any_eq_true, not_forall, exists_prop]
    exact exists_congr fun kind => and_congr_right fun mem => skips_eq_true_iff (supported kind mem)
  rw [Bool.eq_iff_iff, some]
  unfold collapse
  split_ifs with plus <;> simpa [skips] using plus

/-- Several repetitions may lead back when one of them may. -/
lemma loops_collapse (supported : ∀ kind ∈ kinds, kind.isSupported = true)
    (nonempty : kinds ≠ []) : (collapse kinds).loops = kinds.any loops := by
  have some : kinds.any loops = true ↔ ¬∀ kind ∈ kinds, kind = zeroOrOne := by
    simp only [List.any_eq_true, not_forall, exists_prop]
    exact exists_congr fun kind => and_congr_right fun mem => loops_eq_true_iff (supported kind mem)
  rw [Bool.eq_iff_iff, some]
  unfold collapse
  split_ifs with plus optional
  · obtain ⟨kind, mem⟩ := List.exists_mem_of_ne_nil _ nonempty
    have other : ¬∀ kind ∈ kinds, kind = zeroOrOne := fun optional => by
      simpa [plus kind mem] using optional kind mem
    simp [loops, other]
  · simpa [loops] using optional
  · simpa [loops] using optional

end QuantifierKind

/-! ### Stacks -/

namespace Expr

/-- An expression puts repetitions of some kinds on top of an operand, the last of them first, with
groups and sequences of one item in between. -/
inductive Stacked (operand : Expr) : List QuantifierKind → Expr → Prop
  | operand : Stacked operand [] operand
  | repetition {kinds : List QuantifierKind} {e : Expr} (kind : QuantifierKind) (greedy : Bool) :
      kind.isSupported = true → Stacked operand kinds e →
        Stacked operand (kind :: kinds) (.repetition ⟨kind, greedy⟩ e)
  | group {kinds : List QuantifierKind} {e : Expr} (capturing : Bool) :
      Stacked operand kinds e → Stacked operand kinds (.group capturing e)
  | single {kinds : List QuantifierKind} {e : Expr} :
      Stacked operand kinds e → Stacked operand kinds (.sequence [e])

variable {operand e : Expr} {kinds : List QuantifierKind} {a b : Arena} {f : Fragment}

/-- A stack of repetitions adds what its repetitions add. -/
lemma Stacked.run (stacked : Stacked operand kinds e) (run : operand.compile.run a = .ok (f, b))
    (entry : f.entry < b.size) (exit : f.exit < b.size) (ne : f.entry ≠ f.exit) :
    e.compile.run a =
      .ok (f, b.repeated f (kinds.any QuantifierKind.skips) (kinds.any QuantifierKind.loops)) := by
  induction stacked with
  | operand => exact run
  | @repetition kinds e kind greedy supported _ ih =>
    rw [compile, run_bind_of_run ih, List.any_cons, List.any_cons]
    generalize kinds.any QuantifierKind.skips = skip
    generalize kinds.any QuantifierKind.loops = loop
    cases kind with
    | zeroOrMore =>
      change f.star.run _ = _
      rw [Fragment.star, run_bind_of_run (run_connect (by simpa)), Arena.repeated_skip ne,
        run_bind_of_run (run_connect (by simpa)), Arena.repeated_loop]
      rfl
    | oneOrMore =>
      change f.plus.run _ = _
      rw [Fragment.plus, run_bind_of_run (run_connect (by simpa)), Arena.repeated_loop]
      rfl
    | zeroOrOne =>
      change f.optional.run _ = _
      rw [Fragment.optional, run_bind_of_run (run_connect (by simpa)), Arena.repeated_skip ne]
      rfl
    | range min max => cases supported
  | group capturing _ ih =>
    rw [compile]
    exact ih
  | single _ ih =>
    rw [← compile_ofItems]
    exact ih

lemma Stacked.isSupported_kinds (stacked : Stacked operand kinds e) :
    ∀ kind ∈ kinds, kind.isSupported = true := by
  induction stacked with
  | operand => simp
  | repetition kind greedy supported _ ih => exact List.forall_mem_cons.2 ⟨supported, ih⟩
  | group capturing _ ih => exact ih
  | single _ ih => exact ih

/-- A stack of repetitions is supported when its operand is. -/
lemma Stacked.isSupported (stacked : Stacked operand kinds e)
    (supported : operand.isSupported = true) : e.isSupported = true := by
  induction stacked with
  | operand => exact supported
  | repetition kind greedy offers _ ih => rw [Expr.isSupported, offers, ih]; rfl
  | group capturing _ ih => exact ih
  | single _ ih => simp [Expr.isSupported, allSupported, ih]

end Expr

namespace Automaton

/-- Quantifiers on top of one another make the automaton of a single quantifier, state by state, if
the operand has an automaton: the automaton of `+` when all of them are `+`, that of `?` when all of
them are `?`, and otherwise that of `*`. -/
theorem ofExpr_stacked {operand e : Expr} {m : Automaton} {kinds : List QuantifierKind}
    (h : ofExpr operand = .ok m) (stacked : Expr.Stacked operand kinds e) (some : kinds ≠ [])
    (greedy : Bool) : ∃ nfa, ofExpr e = .ok nfa ∧
      ofExpr (.repetition ⟨.collapse kinds, greedy⟩ operand) = .ok nfa := by
  have single : Expr.Stacked operand [.collapse kinds]
      (.repetition ⟨.collapse kinds, greedy⟩ operand) :=
    .repetition _ greedy (QuantifierKind.isSupported_collapse kinds) .operand
  obtain ⟨T, own⟩ := exists_occupies_of_ofExpr h
  have entry := own.lt_size _ own.entry_mem
  have exit := own.lt_size _ own.exit_mem
  have run := (run_compile_of_ofExpr h).1
  have kinds_supported := stacked.isSupported_kinds
  have skips : [QuantifierKind.collapse kinds].any QuantifierKind.skips =
      kinds.any QuantifierKind.skips := by simp [QuantifierKind.skips_collapse kinds_supported]
  have loops : [QuantifierKind.collapse kinds].any QuantifierKind.loops =
      kinds.any QuantifierKind.loops := by simp [QuantifierKind.loops_collapse kinds_supported some]
  have same : ofExpr e = ofExpr (.repetition ⟨.collapse kinds, greedy⟩ operand) := by
    rw [ofExpr, ofExpr, construct, construct, stacked.run run entry exit own.entry_ne_exit,
      single.run run entry exit own.entry_ne_exit, skips, loops]
  obtain ⟨nfa, made⟩ := exists_ofExpr
    ((Expr.offences_eq_nil_iff e).2 (stacked.isSupported (isSupported_of_ofExpr h)))
  exact ⟨nfa, made, same ▸ made⟩

/-- A `+` and a lazy `?` on top of a repetition, as in `((?:(ab*)*)+)??`. -/
theorem ofExpr_stacked_nestedRepetition :
    (∃ m, ofExpr nestedRepetition = .ok m) ∧
    ∃ nfa, ofExpr (.repetition ⟨.zeroOrOne, false⟩ (.sequence [.group true
        (.repetition ⟨.oneOrMore, true⟩ nestedRepetition)])) = .ok nfa ∧
      ofExpr (.repetition ⟨.zeroOrMore, true⟩ nestedRepetition) = .ok nfa := by
  have stacked : Expr.Stacked nestedRepetition [.zeroOrOne, .oneOrMore]
      (.repetition ⟨.zeroOrOne, false⟩ (.sequence [.group true
        (.repetition ⟨.oneOrMore, true⟩ nestedRepetition)])) :=
    .repetition _ _ rfl (.single (.group true (.repetition _ _ rfl .operand)))
  obtain ⟨m, made⟩ := exists_ofExpr ((Expr.offences_eq_nil_iff nestedRepetition).2 (by decide))
  exact ⟨⟨m, made⟩, ofExpr_stacked made stacked (by decide) true⟩

end Automaton

end PatternAutomata
