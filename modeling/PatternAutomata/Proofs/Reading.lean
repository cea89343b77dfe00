import PatternAutomata.Proofs.Compiled
import PatternAutomata.Proofs.ReaderSteps

/-!
# Reading the constructs of plain patterns

Outside verbose mode the reader reads each construct of plain patterns, wherever it stands: one
lemma for each construct says where the reader goes on and what it then holds
(`Reader.exists_reads_literal` and the lemmas after it). Only a question mark that follows matters,
since it belongs to a quantifier or to the parenthesis before it.

Of plain trees only the expressions matter. What has been read of the inside of a group is a list of
branches, which gives the expression of the inside (`Level.toExpr_body`).
-/

namespace PatternAutomata

/-- A character as it is written in a pattern, with a backslash if it has a special meaning. -/
def spelled (x : Char) : List Char := if isSpecial x then ['\\', x] else [x]

/-- A character that needs no backslash has no meaning of its own. -/
lemma notMem_syntaxCharacters {x : Char} (h : isSpecial x ≠ true) : x ∉ syntaxCharacters := by
  have all : syntaxCharacters.all isSpecial = true := by decide
  exact fun mem => h (List.all_eq_true.1 all x mem)

/-- A character that begins neither of two texts does not begin them together. -/
lemma head?_append_ne {xs ys : List Char} {x : Char} (hx : xs.head? ≠ some x)
    (hy : ys.head? ≠ some x) : (xs ++ ys).head? ≠ some x := by
  cases xs with
  | nil => exact hy
  | cons y xs => exact hx

/-- The expression of the items of a branch. -/
def Expr.ofItems : List Expr → Expr
  | [e] => e
  | es => .sequence es

namespace Level

variable {k : Level} {t : Tree}

/-- The expressions of the branches that ended. -/
def endedExprs (k : Level) : List Expr := (k.branches.map Tree.toExpr).reverse

/-- The expressions of the items of the present branch. -/
def itemExprs (k : Level) : List Expr := (k.items.map Tree.toExpr).reverse

/-- The expressions of all branches. -/
def exprs (k : Level) : List Expr := k.endedExprs ++ [.ofItems k.itemExprs]

/-- An item that is alone in its branch is the branch. -/
lemma exprs_push (alone : k.items = []) : (k.push t).exprs = k.endedExprs ++ [t.toExpr] := by
  simp [exprs, endedExprs, itemExprs, push, alone, Expr.ofItems]

/-- A branch of plain items has the expression of its items. -/
lemma toExpr_branch (stop : Position) (plain : ∀ t ∈ k.items, t.isPlain = true) :
    (k.branch stop).toExpr = .ofItems k.itemExprs := by
  unfold branch itemExprs
  split
  · simp_all [Expr.ofItems, Tree.toExpr]
  · simp_all [Expr.ofItems]
  · rename_i several
    have plain : Tree.allPlain k.items.reverse = true :=
      (Tree.allPlain_iff _).2 fun t ht => plain t (List.mem_reverse.1 ht)
    rw [Tree.toExpr, Tree.itemExprs_eq plain, List.map_reverse, Expr.ofItems]
    intro e single
    rw [← List.map_reverse, List.map_eq_singleton_iff] at single
    obtain ⟨t, single, -⟩ := single
    exact several t (by simpa using congrArg List.reverse single)

/-- Another branch leaves the branches before it. -/
lemma endedExprs_nextBranch (stop begun : Position) (plain : ∀ t ∈ k.items, t.isPlain = true) :
    (k.nextBranch stop begun).endedExprs = k.exprs := by
  rw [exprs, ← toExpr_branch stop plain]
  simp [nextBranch, endedExprs]

/-- A branch of plain items is plain when there are any. -/
lemma isPlain_branch (stop : Position) (plain : ∀ t ∈ k.items, t.isPlain = true) :
    (k.branch stop).isPlain = true ↔ k.items ≠ [] := by
  unfold branch
  split
  · simp_all [Tree.isPlain]
  · simp_all
  · have plain : Tree.allPlain k.items.reverse = true :=
      (Tree.allPlain_iff _).2 fun t ht => plain t (List.mem_reverse.1 ht)
    simp [Tree.isPlain, plain]

/-- The inside of a group of which only plain trees have been read has the expression of its
branches. -/
lemma toExpr_body (stop : Position) (plain : k.Holds (·.isPlain = true)) :
    (k.body stop).toExpr = .ofBranches k.exprs := by
  have branch := toExpr_branch stop plain.items
  unfold body exprs endedExprs
  split
  · rename_i none
    rw [branch, none]
    rfl
  · rw [Tree.toExpr_alternation, List.map_reverse, List.map_cons, branch, List.reverse_cons]

/-- The inside of a group of which only plain trees have been read is plain when the last branch is
not empty. -/
lemma isPlain_body (stop : Position) (plain : k.Holds (·.isPlain = true)) :
    (k.body stop).isPlain = true ↔ k.items ≠ [] := by
  have branch := isPlain_branch stop plain.items
  unfold body
  split
  · exact branch
  · rw [← branch, Tree.isPlain, Bool.and_eq_true, Tree.allPlain_iff]
    constructor
    · intro h
      exact h.2 _ (by simp)
    · intro h
      refine ⟨by simp, fun t ht => ?_⟩
      rcases List.mem_cons.1 (List.mem_reverse.1 ht) with rfl | ht
      · exact h
      · exact plain.branches t ht

/-- A plain branch may be ended. -/
lemma holds_nextBranch (plain : k.Holds (·.isPlain = true)) (some : k.items ≠ [])
    (stop begun : Position) : (k.nextBranch stop begun).Holds (·.isPlain = true) :=
  ⟨List.forall_mem_cons.2 ⟨(isPlain_branch stop plain.items).2 some, plain.branches⟩,
    List.forall_mem_nil _⟩

/-- The last item can be repeated when it is plain. -/
lemma operand?_of_isPlain {items : List Tree} (last : k.items = t :: items)
    (plain : t.isPlain = true) : k.operand? = some (t, items) := by
  unfold operand?
  rw [last]
  cases t <;> first | rfl | cases plain

end Level

namespace Reader

/-- The reader `r` reads up to the characters `rest` and goes on as `s`, outside verbose mode. -/
structure Reads (r s : Reader) (rest : List Char) : Prop where
  run : r.run = s.run
  rest : s.cursor.rest = rest
  terse : s.cursor.verbose = false

variable {r s : Reader} {x : Char} {rest : List Char}

lemma Reads.trans {s' : Reader} {rest' : List Char} (first : r.Reads s rest)
    (second : s.Reads s' rest') : r.Reads s' rest' :=
  ⟨first.run.trans second.run, second.rest, second.terse⟩

/-- A step reads what its construct is written with. -/
lemma Step.reads {more : List Char} (step : r.Step x s) (terse : r.cursor.verbose = false)
    (under : r.cursor.rest = x :: more) (behind : s.cursor.rest = rest)
    (terse' : s.cursor.verbose = false) : r.Reads s rest :=
  ⟨run_of_step terse under step, behind, terse'⟩

variable (terse : r.cursor.verbose = false)
include terse

/-- A character without a meaning of its own is read as itself. -/
lemma exists_reads_literal (under : r.cursor.rest = x :: rest) (ordinary : x ∉ syntaxCharacters) :
    ∃ t d, r.Reads (r.push t d) rest ∧ t.isLeaf = true ∧ t.isPlain = true ∧
      t.toExpr = .char .simple x := by
  refine ⟨_, _, (Step.literal ordinary).reads terse under ?_ ?_, rfl, rfl, rfl⟩
  · rw [push, Cursor.rest_next, under, List.tail_cons]
  · rw [push, Cursor.verbose_next, terse]

/-- A backslash and a character that may stand behind it are read as that character. -/
lemma exists_reads_escape (under : r.cursor.rest = '\\' :: x :: rest)
    (allowed : isSuperfluous x = true) :
    ∃ t d, r.Reads (r.push t d) rest ∧ t.isLeaf = true ∧ t.isPlain = true ∧
      t.toExpr = .char .simple x := by
  have next : r.cursor.next.peek? = some x := by
    rw [Cursor.peek?, Cursor.rest_next, under, List.tail_cons, List.head?_cons]
  obtain ⟨t, read, plain, expr⟩ := Cursor.readEscape_of_isSuperfluous next allowed
  refine ⟨t, _, (Step.escape read).reads terse under ?_ ?_, (Cursor.readEscape_eq_ok read).1,
    plain, expr⟩
  · rw [push, Cursor.rest_next, Cursor.rest_next, under, List.tail_cons, List.tail_cons]
  · rw [push, Cursor.verbose_next, Cursor.verbose_next, terse]

/-- A character is read as itself when it is spelled with a backslash wherever it needs one. -/
lemma exists_reads_character (under : r.cursor.rest = spelled x ++ rest) :
    ∃ t d, r.Reads (r.push t d) rest ∧ t.isLeaf = true ∧ t.isPlain = true ∧
      t.toExpr = .char .simple x := by
  unfold spelled at under
  split_ifs at under with special
  · exact exists_reads_escape terse under (isSuperfluous_of_isSpecial special)
  · exact exists_reads_literal terse under (notMem_syntaxCharacters special)

/-- The opening of a group without flags is read, unless its name is taken. -/
lemma exists_reads_opening {text : List Char} {captures : Bool} {name? : Option String}
    (opens : Opens text captures name?) (under : r.cursor.rest = '(' :: (text ++ rest))
    (bare : text = [] → rest.head? ≠ some '?')
    (fresh : ∀ n ∈ name?, ∀ other ∈ r.names, other.1 ≠ n) :
    ∃ kind d, r.Reads (r.opened kind d) rest ∧ kind.captures = captures ∧
      kind.name?.map Prod.fst = name? ∧ kind.isFlagless = true := by
  obtain ⟨kind, d, read, behind, -, captures, name, flagless⟩ :=
    Cursor.readOpening_of_opens opens terse under bare fresh
  refine ⟨kind, d, (Step.opening read).reads terse under behind ?_, captures, name, flagless⟩
  rw [opened, Opening.verbose?_of_isFlagless flagless]
  exact terse

/-- The opening of a group without a name is read, and the names stay as they are. -/
lemma exists_reads_unnamed {text : List Char} {captures : Bool} (opens : Opens text captures none)
    (under : r.cursor.rest = '(' :: (text ++ rest)) (bare : text = [] → rest.head? ≠ some '?') :
    ∃ kind d, r.Reads (r.opened kind d) rest ∧ kind.isFlagless = true ∧
      (r.opened kind d).names = r.names := by
  obtain ⟨kind, d, reads, -, unnamed, flagless⟩ :=
    exists_reads_opening terse opens under bare (fun n mem => by cases mem)
  refine ⟨kind, d, reads, flagless, ?_⟩
  rw [opened, Option.map_eq_none_iff.1 unnamed]
  rfl

/-- The parenthesis that closes a group is read. -/
lemma reads_closing {g : OpenGroup} {groups : List OpenGroup} (under : r.cursor.rest = ')' :: rest)
    (inside : r.groups = g :: groups) (around : g.verbose = false) :
    r.Reads (r.closed g groups) rest := by
  refine (Step.closing inside).reads terse under ?_ around
  rw [closed, Cursor.rest_next, under, List.tail_cons]

/-- A bar is read. -/
lemma reads_bar (under : r.cursor.rest = '|' :: rest) : r.Reads r.nextBranch rest := by
  refine Step.bar.reads terse under ?_ ?_
  · rw [nextBranch, Cursor.rest_next, under, List.tail_cons]
  · rw [nextBranch, Cursor.verbose_next, terse]

/-- The character of a quantifier behind a plain item is read together with the question mark that
makes it lazy. -/
lemma exists_reads_quantifier {q : Quantifier} {t : Tree} {items : List Tree}
    (written : QuantifierKind.ofCharacter? x = some q.kind)
    (under : r.cursor.rest = x :: (lazyMark q.greedy ++ rest))
    (ends : q.greedy = true → rest.head? ≠ some '?') (last : r.level.items = t :: items)
    (plain : t.isPlain = true) : ∃ d, r.Reads (r.repeated t items q d) rest := by
  have next : r.cursor.next.rest = lazyMark q.greedy ++ rest := by
    rw [Cursor.rest_next, under, List.tail_cons]
  obtain ⟨d, read, behind, verbose⟩ := Cursor.exists_readUncounted q next ends
  have operand := Level.operand?_of_isPlain last plain
  exact ⟨d, (Step.quantified written operand read).reads terse under behind (verbose.trans terse)⟩

omit terse in
/-- At the end of the pattern, with no group open, the tree is complete. -/
lemma Reads.run_eq_ok {c : Cursor} {k : Level} {names : List (String × Span)}
    (reads : r.Reads ⟨c, k, [], names⟩ []) : r.run = .ok (k.body c.pos) :=
  reads.run.trans (run_of_end reads.terse reads.rest)

/-- When the inside of a group and the parenthesis behind it have been read, the group is an item of
the group around it. -/
lemma exists_reads_group {kind : GroupKind} {c d : Cursor} {k : Level} {rest' : List Char}
    {names : List (String × Span)} (opening : r.Reads (r.opened kind c) rest')
    (flagless : kind.isFlagless = true)
    (inside : (r.opened kind c).Reads ⟨d, k, (r.opened kind c).groups, names⟩ (')' :: rest))
    (plain : k.Holds (·.isPlain = true)) (some : k.items ≠ []) :
    ∃ t d, r.Reads ⟨d, r.level.push t, r.groups, names⟩ rest ∧ t.isPlain = true ∧
      t.toExpr = .group kind.captures (.ofBranches k.exprs) := by
  have closing := reads_closing inside.terse inside.rest rfl terse
  refine ⟨_, _, (opening.trans inside).trans closing, ?_, ?_⟩
  · rw [Tree.isPlain, flagless, (k.isPlain_body d.pos plain).2 some, Bool.and_self]
  · rw [Tree.toExpr, k.toExpr_body d.pos plain]

end Reader

/-! ### Patterns with plain trees -/

/-- Whether the tree of a pattern, if there is one, nests no deeper than the limit. -/
def isWithinNestLimit (pattern : String) : Bool :=
  match (Reader.ofString pattern).run with
  | .ok t => (t.tooDeep? nestLimit).isNone
  | .error _ => true

variable {pattern : String} {t : Tree}

/-- A single character is not nested. -/
lemma Tree.tooDeep?_of_isLeaf {t : Tree} (leaf : t.isLeaf = true) (plain : t.isPlain = true)
    (room : ℕ) : t.tooDeep? room = none := by
  cases t with
  | literal span spelling value => rfl
  | bracketed span text body => cases plain
  | empty span | dot span | assertion span text | classEscape span text => rfl
  | _ => cases leaf

/-- What is read is the tree of the pattern when it does not nest too deep. -/
lemma Tree.ofPattern_of_run (run : (Reader.ofString pattern).run = .ok t)
    (within : t.tooDeep? nestLimit = none) : ofPattern pattern = .ok t := by
  rw [ofPattern, run]
  simp only [bind, Except.bind, within]
  rfl

namespace Automaton

variable {nfa : Automaton}

/-- A pattern that is refused has the error of the refusal. -/
lemma ofPattern_of_refusal {refusal : Refusal} (h : Tree.ofPattern pattern = .error refusal) :
    ofPattern pattern = .error (refusal.toError pattern) := by
  rw [ofPattern, Expr.ofPattern, h]
  rfl

/-- A pattern with a tree has the automaton of the expression of the tree under its flags. -/
lemma ofPattern_of_tree (h : Tree.ofPattern pattern = .ok t) :
    ofPattern pattern = ofExpr (.root t.flagText t.toExpr) := by
  rw [ofPattern, Expr.ofPattern, h]
  rfl

/-- A pattern with a plain tree has the automaton of the expression of the tree. -/
lemma ofPattern_of_run (run : (Reader.ofString pattern).run = .ok t) (plain : t.isPlain = true)
    (within : isWithinNestLimit pattern = true) : ofPattern pattern = ofExpr t.toExpr := by
  rw [isWithinNestLimit, run] at within
  have read := Tree.ofPattern_of_run run (Option.isNone_iff_eq_none.1 within)
  rw [ofPattern_of_tree read, (t.supported_of_isPlain plain).1]
  rfl

/-- A pattern that has an automaton has a plain tree, and it is the automaton of the expression of
the tree. -/
lemma exists_run_of_ofPattern (h : ofPattern pattern = .ok nfa) :
    ∃ t, Tree.ofPattern pattern = .ok t ∧ (Reader.ofString pattern).run = .ok t ∧
      t.isPlain = true ∧ ofExpr t.toExpr = .ok nfa := by
  cases read : Tree.ofPattern pattern with
  | error refusal =>
    rw [ofPattern_of_refusal read] at h
    cases h
  | ok t =>
    rw [ofPattern_of_tree read] at h
    have supported := isSupported_of_ofExpr h
    rw [Expr.isSupported, Bool.and_eq_true, String.isEmpty_iff] at supported
    have plain := (t.isPlain_iff (Tree.readable_of_ofPattern read).isProper).2 supported
    rw [supported.1] at h
    exact ⟨t, rfl, Tree.run_of_ofPattern read, plain, h⟩

end Automaton

end PatternAutomata
