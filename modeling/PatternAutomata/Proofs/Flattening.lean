import PatternAutomata.Proofs.Joints
import PatternAutomata.Proofs.Rendering

/-!
# Groups and nested sequences

Groups, roots without flags, sequences of one item, sequences within sequences and the greediness of
repetitions make no difference to a compilation. `Expr.flatten` takes them away, and the expression
that is left compiles to the same fragment in the same arena, state by state, or fails with the same
error (`Expr.compile_flatten`).

The sequences are what takes an argument. The items of a sequence within a sequence are joined
before the later items are compiled, those of a flat sequence after that. But a compilation ignores
the states that are joined, the joints are at different states and can be made in any order, and
either way they are the same joints (`Fragment.joints_perm`).
-/

namespace PatternAutomata

open Build Fragment

/-! ### Joints of nested sequences -/

namespace Fragment

variable {f g : Fragment} {fs : List Fragment}

lemma entry_span (f : Fragment) (fs : List Fragment) : (f.span fs).entry = f.entry := by
  induction fs generalizing f with
  | nil => rfl
  | cons g fs ih => exact ih ⟨f.entry, g.exit⟩

/-- The exit of a span does not depend on the entry of the first fragment. -/
lemma exit_span_of_exit_eq (same : f.exit = g.exit) : (f.span fs).exit = (g.span fs).exit := by
  induction fs generalizing f g with
  | nil => exact same
  | cons h fs ih => exact ih rfl

lemma span_append (f : Fragment) (fs gs : List Fragment) :
    f.span (fs ++ gs) = (f.span fs).span gs := List.foldl_append

lemma exit_span_cons (f g : Fragment) (fs : List Fragment) :
    (f.span (g :: fs)).exit = (g.span fs).exit :=
  exit_span_of_exit_eq (f := ⟨f.entry, g.exit⟩) rfl

/-- Some fragments behind another one span as much as their own span does. -/
lemma span_singleton_span (f g : Fragment) (gs : List Fragment) :
    f.span [g.span gs] = f.span (g :: gs) :=
  calc f.span [g.span gs]
    _ = ⟨f.entry, (g.span gs).exit⟩ := rfl
    _ = ⟨(f.span (g :: gs)).entry, (f.span (g :: gs)).exit⟩ := by rw [entry_span, exit_span_cons]

/-- Some fragments among others span as much as their own span does. -/
lemma span_nested (f : Fragment) (ps : List Fragment) (g : Fragment) (gs qs : List Fragment) :
    f.span (ps ++ (g :: gs) ++ qs) = f.span (ps ++ g.span gs :: qs) :=
  calc f.span (ps ++ (g :: gs) ++ qs)
    _ = ((f.span ps).span (g :: gs)).span qs := by rw [span_append, span_append]
    _ = ((f.span ps).span [g.span gs]).span qs := by rw [span_singleton_span]
    _ = f.span (ps ++ g.span gs :: qs) := by
      rw [← span_append, ← span_append, List.singleton_append]

/-- The joints of fragments in a row are those of the first ones and those behind their span. -/
lemma joints_append (g : Fragment) (gs qs : List Fragment) :
    joints (g :: gs ++ qs) = joints (g :: gs) ++ joints (g.span gs :: qs) := by
  induction gs generalizing g with
  | nil => rfl
  | cons h gs ih =>
    have same : joints (g.span (h :: gs) :: qs) = joints (h.span gs :: qs) :=
      joints_cons_of_exit_eq (exit_span_cons g h gs)
    rw [same, joints_cons_cons]
    exact congrArg ((g.exit, h.entry) :: ·) (ih h)

/-- Up to their order, the joints of fragments in a row are those of some of them and those of their
span among the others. -/
lemma joints_perm (ps : List Fragment) (g : Fragment) (gs qs : List Fragment) :
    (joints (ps ++ (g :: gs) ++ qs)).Perm
      (joints (g :: gs) ++ joints (ps ++ g.span gs :: qs)) := by
  induction ps with
  | nil => exact .of_eq (joints_append g gs qs)
  | cons p ps ih =>
    cases ps with
    | nil =>
      have entry : (g.span gs).entry = g.entry := entry_span g gs
      refine (ih.cons (p.exit, g.entry)).trans ?_
      rw [← entry]
      exact List.perm_middle.symm
    | cons p' ps => exact (ih.cons (p.exit, p'.entry)).trans List.perm_middle.symm

/-- Some fragments among others may be joined before the others are. -/
lemma links_nested {a : Arena} {ps : List Fragment} {g : Fragment} {gs qs : List Fragment}
    (separate : a.Separate (ps ++ (g :: gs) ++ qs)) :
    a.links (joints (ps ++ (g :: gs) ++ qs)) =
      (a.links (joints (g :: gs))).links (joints (ps ++ g.span gs :: qs)) := by
  rw [← Arena.links_append]
  exact Arena.links_perm (joints_perm ps g gs qs) (nodup_joints separate.nodup)

end Fragment

namespace Expr

/-! ### Sequences within sequences -/

lemma allOffences_append (es fs : List Expr) :
    allOffences (es ++ fs) = allOffences es ++ allOffences fs := by
  induction es with
  | nil => rfl
  | cons e es ih => rw [List.cons_append, allOffences, allOffences, ih, List.append_assoc]

lemma allSupported_append (es fs : List Expr) :
    allSupported (es ++ fs) = (allSupported es && allSupported fs) := by
  induction es with
  | nil => rfl
  | cons e es ih => rw [List.cons_append, allSupported, allSupported, ih, Bool.and_assoc]

/-- Expressions are compiled one after the other. -/
lemma run_compileAll_cons {e : Expr} {es : List Expr} {a b c : Arena} {f : Fragment}
    {fs : List Fragment} (first : e.compile.run a = .ok (f, b))
    (others : (compileAll es).run b = .ok (fs, c)) :
    (compileAll (e :: es)).run a = .ok (f :: fs, c) := by
  rw [compileAll, run_bind_of_run first, run_bind_of_run others]
  rfl

/-- Expressions are compiled one part after the other. -/
lemma run_compileAll_append {es es' : List Expr} {a b c : Arena} {fs gs : List Fragment}
    (first : (compileAll es).run a = .ok (fs, b)) (second : (compileAll es').run b = .ok (gs, c)) :
    (compileAll (es ++ es')).run a = .ok (fs ++ gs, c) := by
  have parts : compileAll (es ++ es') = do
      return (← compileAll es) ++ (← compileAll es') := by
    clear first
    induction es with
    | nil => simp [compileAll]
    | cons e es ih => simp [compileAll, ih]
  rw [parts, run_bind_of_run first, run_bind_of_run second]
  rfl

lemma eq_cons_of_run {e : Expr} {es : List Expr} {a b : Arena} {fs : List Fragment}
    (run : (compileAll (e :: es)).run a = .ok (fs, b)) : ∃ g gs, fs = g :: gs := by
  rw [compileAll] at run
  obtain ⟨g, _, -, run⟩ := exists_of_run_bind run
  obtain ⟨gs, _, -, run⟩ := exists_of_run_bind run
  cases run
  exact ⟨g, gs, rfl⟩

/-- The items of a sequence within a sequence may be joined with the others or before them. -/
lemma run_splice {pre post : List Expr} {x : Expr} {xs : List Expr}
    (supported : allSupported (pre ++ (x :: xs) ++ post) = true) (a : Arena) :
    (sequence (pre ++ (x :: xs) ++ post)).compile.run a =
      (sequence (pre ++ sequence (x :: xs) :: post)).compile.run a := by
  have parts := supported
  rw [allSupported_append, allSupported_append, Bool.and_eq_true, Bool.and_eq_true] at parts
  obtain ⟨⟨hpre, hmid⟩, hpost⟩ := parts
  have nested : allSupported (pre ++ sequence (x :: xs) :: post) = true := by
    have inner : (sequence (x :: xs)).isSupported = true := by rw [isSupported, hmid]; rfl
    rw [allSupported_append, allSupported, hpre, inner, hpost]
    rfl
  obtain ⟨ps, b, runPre, -, -⟩ := compileAll_yields pre hpre a
  obtain ⟨_, c, runMid, -, -⟩ := compileAll_yields (x :: xs) hmid b
  obtain ⟨g, gs, rfl⟩ := eq_cons_of_run runMid
  obtain ⟨qs, d, runPost, -, -⟩ := compileAll_yields post hpost c
  -- the joints of the inner sequence are old states when the items behind it are compiled
  have old := lt_size_of_mem_joints (separate_of_run hmid runMid)
  have flat := run_compileAll_append (run_compileAll_append runPre runMid) runPost
  have deep := run_compileAll_append runPre <| run_compileAll_cons (run_sequence hmid runMid) <|
    (compileAll_ignores post).run_links runPost old
  have same := links_nested (separate_of_run supported flat)
  cases ps with
  | nil =>
    refine (run_sequence supported flat).trans (.trans ?_ (run_sequence nested deep).symm)
    exact congrArg Except.ok (Prod.ext (span_append g gs qs) same)
  | cons p ps =>
    refine (run_sequence supported flat).trans (.trans ?_ (run_sequence nested deep).symm)
    exact congrArg Except.ok (Prod.ext (span_nested p ps g gs qs) same)

/-- A sequence with items among the items of a sequence makes no difference. -/
lemma compile_splice (pre : List Expr) (x : Expr) (xs post : List Expr) :
    (sequence (pre ++ (x :: xs) ++ post)).compile =
      (sequence (pre ++ sequence (x :: xs) :: post)).compile := by
  have same : (sequence (pre ++ sequence (x :: xs) :: post)).offences =
      (sequence (pre ++ (x :: xs) ++ post)).offences := by
    simp [offences, allOffences_append, allOffences]
  funext a
  rcases offends : (sequence (pre ++ (x :: xs) ++ post)).offences with _ | ⟨o, more⟩
  · rw [offences_eq_nil_iff, isSupported, Bool.and_eq_true] at offends
    exact run_splice offends.2 a
  · have flat := run_compile_eq_error _ offends a
    have deep := run_compile_eq_error _ (same.trans offends) a
    exact flat.trans deep.symm

/-! ### Flattening -/

/-- The items that an expression stands for among the items of a sequence: its own if it is a
sequence with items. -/
def spliced : Expr → List Expr
  | sequence (x :: xs) => x :: xs
  | e => [e]

mutual

/-- An expression without groups, without roots that have no flags, without sequences of one item
and without sequences with items among the items of a sequence, all of whose repetitions are
greedy. -/
def flatten : Expr → Expr
  | root flags body => if flags.isEmpty then body.flatten else root flags body.flatten
  | sequence items => ofItems ((flattenAll items).flatMap spliced)
  | choice left right => choice left.flatten right.flatten
  | repetition quantifier operand => repetition ⟨quantifier.kind, true⟩ operand.flatten
  | char kind value => char kind value
  | group _ body => body.flatten
  | charClass text => charClass text
  | assertion text => assertion text
  | backreference text => backreference text

/-- The flattened expressions. -/
def flattenAll : List Expr → List Expr
  | [] => []
  | e :: es => e.flatten :: flattenAll es

end

lemma compile_spliced (pre : List Expr) (e : Expr) (post : List Expr) :
    (sequence (pre ++ e.spliced ++ post)).compile = (sequence (pre ++ e :: post)).compile := by
  unfold spliced
  split
  · exact compile_splice pre _ _ post
  · rw [List.append_assoc, List.singleton_append]

/-- All sequences with items among the items of a sequence can be spliced. -/
lemma compile_flatMap_spliced (pre es : List Expr) :
    (sequence (pre ++ es.flatMap spliced)).compile = (sequence (pre ++ es)).compile := by
  induction es generalizing pre with
  | nil => rfl
  | cons e es ih =>
    rw [List.flatMap_cons, ← List.append_assoc, ih, compile_spliced]

mutual

/-- A flattened expression compiles like the expression. -/
theorem compile_flatten (e : Expr) : e.flatten.compile = e.compile := by
  cases e with
  | root flags body =>
    rw [flatten]
    split
    · rename_i none
      rw [compile, if_pos none, compile_flatten body]
    · rw [compile, compile, compile_flatten body]
  | sequence items =>
    have flat := compile_flatMap_spliced [] (flattenAll items)
    rw [List.nil_append, List.nil_append] at flat
    rw [flatten, compile_ofItems, flat, compile, compile, compileAll_flattenAll items]
  | choice left right => rw [flatten, compile, compile, compile_flatten left, compile_flatten right]
  | repetition quantifier operand => rw [flatten, compile, compile, compile_flatten operand]
  | group capturing body => rw [flatten, compile, compile_flatten body]
  | char kind value => rw [flatten]
  | charClass text => rw [flatten]
  | assertion text => rw [flatten]
  | backreference text => rw [flatten]

/-- Flattened expressions compile like the expressions. -/
theorem compileAll_flattenAll (es : List Expr) : compileAll (flattenAll es) = compileAll es := by
  cases es with
  | nil => rfl
  | cons e es =>
    rw [flattenAll, compileAll, compileAll, compile_flatten e, compileAll_flattenAll es]

end

/-! ### What flattening leaves -/

/-- Whether an expression is a sequence with items. -/
def hasItems : Expr → Bool
  | sequence (_ :: _) => true
  | _ => false

mutual

/-- Whether nothing is left in an expression that could be flattened. -/
def isFlat : Expr → Bool
  | root flags body => !flags.isEmpty && body.isFlat
  | sequence items => items.length != 1 && items.all (!·.hasItems) && allFlat items
  | choice left right => left.isFlat && right.isFlat
  | repetition quantifier operand => quantifier.greedy && operand.isFlat
  | group _ _ => false
  | char _ _ => true
  | charClass _ => true
  | assertion _ => true
  | backreference _ => true

/-- Whether nothing is left in some expressions that could be flattened. -/
def allFlat : List Expr → Bool
  | [] => true
  | e :: es => e.isFlat && allFlat es

end

variable {e : Expr} {es : List Expr}

lemma allFlat_iff : allFlat es = true ↔ ∀ e ∈ es, e.isFlat = true := by
  induction es with
  | nil => simp [allFlat]
  | cons e es ih => simp [allFlat, ih]

/-- What a flat expression stands for among other items is flat, and no sequence with items. -/
lemma isFlat_of_mem_spliced (flat : e.isFlat = true) :
    ∀ d ∈ e.spliced, d.isFlat = true ∧ d.hasItems = false := by
  unfold spliced
  split
  · rename_i x xs
    rw [isFlat, Bool.and_eq_true, Bool.and_eq_true, allFlat_iff, List.all_eq_true] at flat
    intro d mem
    exact ⟨flat.2 d mem, by simpa using flat.1.2 d mem⟩
  · rename_i whole
    intro d mem
    obtain rfl := List.mem_singleton.1 mem
    refine ⟨flat, ?_⟩
    unfold hasItems
    split
    · rename_i x xs
      exact absurd rfl (whole x xs)
    · rfl

/-- A sequence of flat items that are no sequences with items is flat, or else its only item. -/
lemma isFlat_ofItems (flat : ∀ d ∈ es, d.isFlat = true ∧ d.hasItems = false) :
    (ofItems es).isFlat = true := by
  unfold ofItems
  split
  · exact (flat _ (by simp)).1
  · rename_i several
    have length : es.length ≠ 1 := fun one => by
      obtain ⟨e, rfl⟩ := List.length_eq_one_iff.1 one
      exact several e rfl
    rw [isFlat, Bool.and_eq_true, Bool.and_eq_true, allFlat_iff, List.all_eq_true]
    refine ⟨⟨by simpa using length, fun d mem => ?_⟩, fun d mem => (flat d mem).1⟩
    rw [(flat d mem).2]
    rfl

mutual

/-- Nothing is left in a flattened expression that could be flattened. -/
theorem isFlat_flatten (e : Expr) : e.flatten.isFlat = true := by
  cases e with
  | root flags body =>
    rw [flatten]
    split
    · exact isFlat_flatten body
    · rename_i some
      rw [isFlat, isFlat_flatten body, Bool.and_true, Bool.not_eq_true']
      exact Bool.eq_false_iff.2 some
  | sequence items =>
    rw [flatten]
    refine isFlat_ofItems fun d mem => ?_
    obtain ⟨e, he, hd⟩ := List.mem_flatMap.1 mem
    exact isFlat_of_mem_spliced (allFlat_iff.1 (allFlat_flattenAll items) e he) d hd
  | choice left right => rw [flatten, isFlat, isFlat_flatten left, isFlat_flatten right]; rfl
  | repetition quantifier operand => rw [flatten, isFlat, isFlat_flatten operand]; rfl
  | group capturing body => exact isFlat_flatten body
  | char kind value => rfl
  | charClass text => rfl
  | assertion text => rfl
  | backreference text => rfl

/-- Nothing is left in flattened expressions that could be flattened. -/
theorem allFlat_flattenAll (es : List Expr) : allFlat (flattenAll es) = true := by
  cases es with
  | nil => rfl
  | cons e es => rw [flattenAll, allFlat, isFlat_flatten e, allFlat_flattenAll es]; rfl

end

end Expr

/-- Flattening an expression leaves nothing to be flattened, and the automaton of the flattened
expression is that of the expression, state by state; when one of them fails to compile, so does the
other with the same error. -/
theorem Automaton.ofExpr_flatten (e : Expr) :
    e.flatten.isFlat = true ∧ ofExpr e.flatten = ofExpr e := by
  refine ⟨e.isFlat_flatten, ?_⟩
  rw [ofExpr, ofExpr, e.compile_flatten]

example : (Expr.sequence [.char .simple 'a', .group true (.sequence [.char .simple 'b',
    .repetition ⟨.zeroOrMore, false⟩ (.sequence [.char .simple 'c'])])]).flatten =
      .sequence [.char .simple 'a', .char .simple 'b',
        .repetition ⟨.zeroOrMore, true⟩ (.char .simple 'c')] := by
  rfl

end PatternAutomata
