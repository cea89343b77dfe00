import PatternAutomata.Proofs.Embedding

/-!
# Composing patterns

Patterns can be composed as texts: with a bar between two patterns, with two patterns in groups one
behind the other, and with a pattern in a repeated group. If the patterns have automata and no name
of a group in common, so has the composed pattern, unless it nests too deep, and it accepts the
union, the products or the powers of what the automata of its parts accept
(`Automaton.ofPattern_compositions`).

Each part is read as it is read alone (`Reader.exists_reads_pattern`), so the tree of a composed
pattern is made of the trees of its parts. A pattern in a group that does not capture is an item,
and a pattern without a group around it adds its branches to those of the other one.
-/

namespace PatternAutomata

open scoped Computability

/-! ### Words of composed expressions -/

/-- The words of two lists of branches are those of both. -/
lemma Expr.through_ofBranches_append {es fs : List Expr} (some : es ≠ []) (some' : fs ≠ []) :
    (ofBranches (es ++ fs)).crossings.through =
      (ofBranches es).crossings.through + (ofBranches fs).crossings.through := by
  obtain ⟨e, es, rfl⟩ := List.exists_cons_of_ne_nil some
  obtain ⟨f, fs, rfl⟩ := List.exists_cons_of_ne_nil some'
  rw [List.cons_append, through_ofBranches, through_ofBranches, through_ofBranches,
    ← List.cons_append, List.map_append, List.sum_append]

/-- The words of a product are joined from two words. -/
lemma mem_mul_iff (L M : Language Char) (text : String) :
    text.toList ∈ L * M ↔ ∃ u v : String, text = u ++ v ∧ u.toList ∈ L ∧ v.toList ∈ M := by
  rw [Language.mem_mul]
  constructor
  · rintro ⟨u, hu, v, hv, eq⟩
    refine ⟨.ofList u, .ofList v, ?_, ?_, ?_⟩
    · rw [← String.ofList_append, eq, String.ofList_toList]
    · rwa [String.toList_ofList]
    · rwa [String.toList_ofList]
  · rintro ⟨u, v, rfl, hu, hv⟩
    exact ⟨u.toList, hu, v.toList, hv, String.toList_append.symm⟩

/-- The words of positive powers are joined from one or more words. -/
lemma mem_mul_kstar_iff (L : Language Char) (text : String) : text.toList ∈ L * L∗ ↔
    ∃ us : List String, us ≠ [] ∧ text = String.join us ∧ ∀ u ∈ us, u.toList ∈ L := by
  rw [Language.mem_mul]
  constructor
  · rintro ⟨u, hu, v, hv, eq⟩
    obtain ⟨vs, rfl, hvs⟩ := Language.mem_kstar.1 hv
    refine ⟨(u :: vs).map String.ofList, by simp, ?_, ?_⟩
    · rw [← String.toList_inj, String.toList_join, ← eq]
      simp [List.flatMap_def]
    · simpa using ⟨hu, hvs⟩
  · rintro ⟨us, some, rfl, hus⟩
    obtain ⟨u, us, rfl⟩ := List.exists_cons_of_ne_nil some
    obtain ⟨hu, hus⟩ := List.forall_mem_cons.1 hus
    refine ⟨u.toList, hu, (us.map String.toList).flatten, Language.mem_kstar.2 ⟨_, rfl, ?_⟩, ?_⟩
    · simpa using hus
    · simp [String.toList_join, List.flatMap_def]

/-! ### Trees of composed patterns -/

namespace Reader

variable {p q : String} {t u : Tree}

/-- A pattern in a group that does not capture is read as an item. -/
lemma exists_reads_enclosed {r : Reader} {rest : List Char} (run : (ofString p).run = .ok t)
    (plain : t.isPlain = true) (terse : r.cursor.verbose = false)
    (under : r.cursor.rest = "(?:".toList ++ (p.toList ++ (")".toList ++ rest)))
    (fresh : ∀ other ∈ r.names, other.1 ∉ t.names) :
    ∃ (v : Tree) (d : Cursor) (names : List (String × Span)),
      r.Reads ⟨d, r.level.push v, r.groups, names⟩ rest ∧ v.isPlain = true ∧
        v.toExpr.crossings = t.toExpr.crossings ∧
          ∀ other ∈ names, other ∈ r.names ∨ other.1 ∈ t.names := by
  have under' : r.cursor.rest = '(' :: (['?', ':'] ++ (p.toList ++ ')' :: rest)) := under
  obtain ⟨kind, c, opening, flagless, names⟩ :=
    exists_reads_unnamed terse .plain under' (fun none => by cases none)
  rw [← names] at fresh
  have ends : (')' :: rest).head? ≠ some '?' := by simp
  obtain ⟨k, m, d, names', inside, continues, items, expr, known⟩ :=
    exists_reads_pattern run plain opening.terse opening.rest ends fresh (Level.holds_start _) rfl
  obtain ⟨v, d', reads, plain', expr'⟩ :=
    exists_reads_group terse opening flagless inside continues.plain items
  rw [names] at known
  refine ⟨v, d', names', reads, plain', ?_, known⟩
  rw [expr', Expr.crossings, continues.exprs]
  exact congrArg _ expr

/-- Two patterns with a bar between them are read as the branches of both. -/
lemma exists_run_bar (run : (ofString p).run = .ok t) (plain : t.isPlain = true)
    (run' : (ofString q).run = .ok u) (plain' : u.isPlain = true)
    (apart : t.names.Disjoint u.names) : ∃ v, (ofString (p ++ "|" ++ q)).run = .ok v ∧
      v.isPlain = true ∧
        v.toExpr.crossings.through = t.toExpr.crossings.through + u.toExpr.crossings.through := by
  have under : (ofString (p ++ "|" ++ q)).cursor.rest = p.toList ++ '|' :: (q.toList ++ []) := by
    change (p ++ "|" ++ q).toList = _
    rw [String.toList_append, String.toList_append, List.append_nil, List.append_assoc]
    rfl
  obtain ⟨k, m, d, names, first, continues, items, expr, known⟩ :=
    exists_reads_pattern run plain rfl under nofun nofun (Level.holds_start _) rfl
  have bar := reads_bar first.terse first.rest
  have fresh : ∀ other ∈ names, other.1 ∉ u.names := fun other mem mem' =>
    (known other mem).elim nofun fun mem => apart mem mem'
  obtain ⟨k', m', d', names', second, continues', items', expr', -⟩ :=
    exists_reads_pattern run' plain' bar.terse bar.rest nofun fresh
      (Level.holds_nextBranch continues.plain items _ _) rfl
  refine ⟨_, ((first.trans bar).trans second).run_eq_ok,
    (Level.isPlain_body _ continues'.plain).2 items', ?_⟩
  have ended : (m.nextBranch d.pos d.next.pos).endedExprs = k.exprs :=
    (Level.endedExprs_nextBranch _ _ continues.plain.items).trans continues.exprs
  have exprs : m'.exprs = k.exprs ++ k'.exprs := by
    rw [continues'.exprs, ← ended]
    rfl
  rw [Level.toExpr_body _ continues'.plain, exprs, ← expr, ← expr',
    Expr.through_ofBranches_append (by simp [Level.exprs]) (by simp [Level.exprs])]

/-- Two patterns in groups are read as two items. -/
lemma exists_run_enclosed_enclosed (run : (ofString p).run = .ok t) (plain : t.isPlain = true)
    (run' : (ofString q).run = .ok u) (plain' : u.isPlain = true)
    (apart : t.names.Disjoint u.names) :
    ∃ v, (ofString ("(?:" ++ p ++ ")(?:" ++ q ++ ")")).run = .ok v ∧ v.isPlain = true ∧
      v.toExpr.crossings.through = t.toExpr.crossings.through * u.toExpr.crossings.through := by
  have under : (ofString ("(?:" ++ p ++ ")(?:" ++ q ++ ")")).cursor.rest =
      "(?:".toList ++ (p.toList ++ (")".toList ++
        ("(?:".toList ++ (q.toList ++ (")".toList ++ []))))) := by
    change ("(?:" ++ p ++ ")(?:" ++ q ++ ")").toList = _
    simp [String.toList_append]
  obtain ⟨v, d, names, first, vplain, same, known⟩ :=
    exists_reads_enclosed run plain rfl under nofun
  have fresh : ∀ other ∈ names, other.1 ∉ u.names := fun other mem mem' =>
    (known other mem).elim nofun fun mem => apart mem mem'
  obtain ⟨w, d', names', second, wplain, same', -⟩ :=
    exists_reads_enclosed run' plain' first.terse first.rest fresh
  refine ⟨_, (first.trans second).run_eq_ok, ?_, ?_⟩
  · change (Tree.concat _ [v, w]).isPlain = true
    simp [Tree.isPlain, Tree.allPlain, vplain, wplain]
  · change (Tree.concat _ [v, w]).toExpr.crossings.through = _
    rw [Tree.toExpr, Tree.itemExprs_eq (by simp [Tree.allPlain, vplain, wplain])]
    simp only [Expr.crossings, Expr.allCrossings, List.map_cons, List.map_nil]
    rw [Crossings.sequence_through, same, same']
    simp

/-- A pattern in a group with a plus sign behind it is read as a repetition. -/
lemma exists_run_enclosed_plus (run : (ofString p).run = .ok t) (plain : t.isPlain = true) :
    ∃ v, (ofString ("(?:" ++ p ++ ")+")).run = .ok v ∧ v.isPlain = true ∧
      v.toExpr.crossings = t.toExpr.crossings.plus := by
  have under : (ofString ("(?:" ++ p ++ ")+")).cursor.rest =
      "(?:".toList ++ (p.toList ++ (")".toList ++ ['+'])) := by
    change ("(?:" ++ p ++ ")+").toList = _
    simp [String.toList_append]
  obtain ⟨v, d, names, reads, vplain, same, -⟩ :=
    exists_reads_enclosed run plain rfl under nofun
  have plus : QuantifierKind.ofCharacter? '+' = some (Quantifier.mk .oneOrMore true).kind := rfl
  obtain ⟨d', quantified⟩ := exists_reads_quantifier reads.terse plus reads.rest nofun rfl vplain
  refine ⟨_, (reads.trans quantified).run_eq_ok, vplain, ?_⟩
  change Crossings.plus v.toExpr.crossings = _
  rw [same]

end Reader

/-! ### Automata of composed patterns -/

/-- The names of the groups in a pattern. -/
def groupNames (pattern : String) : List String :=
  match Tree.ofPattern pattern with
  | .ok t => t.names
  | .error _ => []

namespace Automaton

/-- A pattern with a plain tree has an automaton, unless it nests too deep, and the automaton
accepts the words through the expression of the tree. -/
lemma exists_ofPattern {pattern : String} {t : Tree} (run : (Reader.ofString pattern).run = .ok t)
    (plain : t.isPlain = true) (within : isWithinNestLimit pattern = true) :
    ∃ nfa, ofPattern pattern = .ok nfa ∧
      ∀ text, nfa.accepts text = true ↔ text.toList ∈ t.toExpr.crossings.through := by
  rw [ofPattern_of_run run plain within]
  exact construct_of_yields (t.toExpr.compile_yields (t.supported_of_isPlain plain).2 .empty)

/-- Patterns that have automata and no name of a group in common can be composed. -/
theorem ofPattern_compositions {p q : String} {m n : Automaton} (hp : ofPattern p = .ok m)
    (hq : ofPattern q = .ok n) (apart : (groupNames p).Disjoint (groupNames q)) :
    (isWithinNestLimit (p ++ "|" ++ q) = true → ∃ k, ofPattern (p ++ "|" ++ q) = .ok k ∧
      ∀ w, k.accepts w = true ↔ m.accepts w = true ∨ n.accepts w = true) ∧
    (isWithinNestLimit ("(?:" ++ p ++ ")(?:" ++ q ++ ")") = true →
      ∃ k, ofPattern ("(?:" ++ p ++ ")(?:" ++ q ++ ")") = .ok k ∧ ∀ w, k.accepts w = true ↔
        ∃ u v, w = u ++ v ∧ m.accepts u = true ∧ n.accepts v = true) ∧
    (isWithinNestLimit ("(?:" ++ p ++ ")+") = true →
      ∃ k, ofPattern ("(?:" ++ p ++ ")+") = .ok k ∧ ∀ w, k.accepts w = true ↔
        ∃ us : List String, us ≠ [] ∧ w = String.join us ∧ ∀ u ∈ us, m.accepts u = true) := by
  obtain ⟨t, read, run, plain, made⟩ := exists_run_of_ofPattern hp
  obtain ⟨u, read', run', plain', made'⟩ := exists_run_of_ofPattern hq
  rw [groupNames, groupNames, read, read'] at apart
  have first := accepts_iff_of_ofExpr made
  have second := accepts_iff_of_ofExpr made'
  refine ⟨fun within => ?_, fun within => ?_, fun within => ?_⟩
  · obtain ⟨v, runs, vplain, words⟩ := Reader.exists_run_bar run plain run' plain' apart
    obtain ⟨k, composed, accepts⟩ := exists_ofPattern runs vplain within
    refine ⟨k, composed, fun w => ?_⟩
    rw [accepts, words, first, second]
    exact Language.mem_add _ _ _
  · obtain ⟨v, runs, vplain, words⟩ :=
      Reader.exists_run_enclosed_enclosed run plain run' plain' apart
    obtain ⟨k, composed, accepts⟩ := exists_ofPattern runs vplain within
    refine ⟨k, composed, fun w => ?_⟩
    simp only [accepts, words, mem_mul_iff, first, second]
  · obtain ⟨v, runs, vplain, words⟩ := Reader.exists_run_enclosed_plus run plain
    obtain ⟨k, composed, accepts⟩ := exists_ofPattern runs vplain within
    refine ⟨k, composed, fun w => ?_⟩
    simp only [accepts, words, Crossings.plus_through, mem_mul_kstar_iff, first]

/-- A pattern with a named group and a bar outside of it. -/
def namedChoice : String := "(?<a>x)|y"

/-- A pattern with a named group under a lazy quantifier, a bar and an escape. -/
def lazyChoice : String := "(?P<b>z)*?|\\."

theorem ofPattern_compositions_namedChoice :
    ∃ m n, ofPattern namedChoice = .ok m ∧ ofPattern lazyChoice = .ok n ∧
      (∃ k, ofPattern (namedChoice ++ "|" ++ lazyChoice) = .ok k ∧
        ∀ w, k.accepts w = true ↔ m.accepts w = true ∨ n.accepts w = true) ∧
      (∃ k, ofPattern ("(?:" ++ namedChoice ++ ")(?:" ++ lazyChoice ++ ")") = .ok k ∧
        ∀ w, k.accepts w = true ↔ ∃ u v, w = u ++ v ∧ m.accepts u = true ∧ n.accepts v = true) ∧
      ∃ k, ofPattern ("(?:" ++ namedChoice ++ ")+") = .ok k ∧ ∀ w, k.accepts w = true ↔
        ∃ us : List String, us ≠ [] ∧ w = String.join us ∧ ∀ u ∈ us, m.accepts u = true := by
  have first : (ofPattern namedChoice).isOk = true := by decide +kernel
  have second : (ofPattern lazyChoice).isOk = true := by decide +kernel
  have names : groupNames namedChoice = ["a"] := by decide +kernel
  have names' : groupNames lazyChoice = ["b"] := by decide +kernel
  have apart : (groupNames namedChoice).Disjoint (groupNames lazyChoice) := by
    rw [names, names']
    simp
  have exists_ok : ∀ {made : Except Error Automaton}, made.isOk = true → ∃ nfa, made = .ok nfa
    | .ok nfa, _ => ⟨nfa, rfl⟩
  obtain ⟨m, hm⟩ := exists_ok first
  obtain ⟨n, hn⟩ := exists_ok second
  obtain ⟨bar, joined, repeated⟩ := ofPattern_compositions hm hn apart
  exact ⟨m, n, hm, hn, bar (by decide +kernel), joined (by decide +kernel),
    repeated (by decide +kernel)⟩

end Automaton

end PatternAutomata
