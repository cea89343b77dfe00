import PatternAutomata.Proofs.Reading

/-!
# Reading a pattern inside another one

A pattern with a plain tree is read in the same way wherever it stands, in front of any characters
but a question mark, as long as the names of its groups are not taken. Two readers are compared step
by step: one that reads the pattern alone and one that reads it in its place
(`Reader.Follows.step`, `Reader.Follows.run`). What they hold need not be equal, because positions
differ; but the expressions are (`Level.Continues`).

As a result, reading a pattern in its place adds its branches to those that stand there before
(`Reader.exists_reads_pattern`).
-/

namespace PatternAutomata

/-! ### Plain trees with given names -/

/-- What is true of plain trees with no names of groups but those in `inner`. -/
def Tree.IsPlainIn (inner : List String) (t : Tree) : Prop :=
  t.isPlain = true ∧ ∀ n ∈ t.names, n ∈ inner

/-- What is true of groups without flags and with no name but those in `inner`. -/
def GroupKind.IsFlaglessIn (inner : List String) (kind : GroupKind) : Prop :=
  kind.isFlagless = true ∧ ∀ n ∈ kind.name?, n.1 ∈ inner

lemma Level.Holds.isPlain {inner : List String} {k : Level}
    (h : k.Holds (Tree.IsPlainIn inner)) : k.Holds (·.isPlain = true) :=
  ⟨fun t mem => (h.branches t mem).1, fun t mem => (h.items t mem).1⟩

/-- Parts of plain trees are plain, with no other names of groups. -/
lemma Tree.hereditary_isPlainIn (inner : List String) :
    Hereditary (IsPlainIn inner) (GroupKind.IsFlaglessIn inner) where
  repetition h := by
    simp only [IsPlainIn, isPlain, Bool.and_eq_true] at h
    exact ⟨h.1.2, h.2⟩
  group h := by
    simp only [IsPlainIn, isPlain, names, Bool.and_eq_true, List.mem_append] at h
    refine ⟨⟨h.1.1, fun n mem => h.2 _ (.inl ?_)⟩, h.1.2, fun n mem => h.2 n (.inr mem)⟩
    simp [Option.mem_def.1 mem]
  alternation h t mem := by
    simp only [IsPlainIn, isPlain, names, Bool.and_eq_true, allPlain_iff,
      allNames_eq, List.mem_flatMap] at h
    exact ⟨h.1.2 t mem, fun n mem' => h.2 n ⟨t, mem, mem'⟩⟩
  concat h t mem := by
    simp only [IsPlainIn, isPlain, names, Bool.and_eq_true, allPlain_iff,
      allNames_eq, List.mem_flatMap] at h
    exact ⟨h.1.2 t mem, fun n mem' => h.2 n ⟨t, mem, mem'⟩⟩

/-! ### Levels that correspond -/

/-- The level `m` holds the branches `old` and then, up to positions, what the level `k` holds, and
everything in it is plain. -/
structure Level.Continues (old : List Expr) (k m : Level) : Prop where
  ended : m.endedExprs = old ++ k.endedExprs
  items : m.itemExprs = k.itemExprs
  plain : m.Holds (·.isPlain = true)

namespace Level.Continues

variable {old : List Expr} {k m : Level} {t u : Tree}

lemma exprs (h : Continues old k m) : m.exprs = old ++ k.exprs := by
  rw [Level.exprs, h.ended, h.items, List.append_assoc, Level.exprs]

lemma start (p q : Position) : Continues [] (.start p) (.start q) :=
  ⟨rfl, rfl, Level.holds_start q⟩

/-- Items with the same expression may be added. -/
lemma push (h : Continues old k m) (same : u.toExpr = t.toExpr) (plain : u.isPlain = true) :
    Continues old (k.push t) (m.push u) := by
  refine ⟨h.ended, ?_, Level.holds_push.2 ⟨plain, h.plain⟩⟩
  simpa [Level.push, Level.itemExprs, same] using h.items

/-- When the first level has a last item, the second one has a last item of the same expression. -/
lemma items_eq_cons {ts : List Tree} (h : Continues old k m) (last : k.items = t :: ts) :
    ∃ u us, m.items = u :: us ∧ u.isPlain = true ∧ u.toExpr = t.toExpr := by
  have items := List.reverse_injective h.items
  rw [last, List.map_cons, List.map_eq_cons_iff] at items
  obtain ⟨u, us, eq, same, -⟩ := items
  exact ⟨u, us, eq, h.plain.items u (eq ▸ List.mem_cons_self), same⟩

/-- The last items may be replaced by items with the same expression. -/
lemma replace {ts us : List Tree} {t' u' : Tree} (h : Continues old k m) (last : k.items = t :: ts)
    (last' : m.items = u :: us) (same : u'.toExpr = t'.toExpr) (plain : u'.isPlain = true) :
    Continues old { k with items := t' :: ts } { m with items := u' :: us } := by
  have items := List.reverse_injective h.items
  have plains := h.plain.items
  rw [last, last', List.map_cons, List.map_cons, List.cons.injEq] at items
  rw [last'] at plains
  refine ⟨h.ended, ?_, h.plain.branches, List.forall_mem_cons.2 ⟨plain, ?_⟩⟩
  · rw [Level.itemExprs, Level.itemExprs, List.map_cons, List.map_cons, items.2, same]
  · exact (List.forall_mem_cons.1 plains).2

lemma items_ne_nil (h : Continues old k m) (some : k.items ≠ []) : m.items ≠ [] := by
  obtain ⟨t, ts, last⟩ := List.exists_cons_of_ne_nil some
  obtain ⟨u, us, eq, -⟩ := h.items_eq_cons last
  rw [eq]
  exact List.cons_ne_nil u us

/-- Branches that are not empty may be ended. -/
lemma nextBranch (h : Continues old k m) (plain : ∀ t ∈ k.items, t.isPlain = true)
    (some : k.items ≠ []) (stop begun stop' begun' : Position) :
    Continues old (k.nextBranch stop begun) (m.nextBranch stop' begun') := by
  refine ⟨?_, rfl, holds_nextBranch h.plain (h.items_ne_nil some) _ _⟩
  rw [endedExprs_nextBranch _ _ h.plain.items, endedExprs_nextBranch _ _ plain, h.exprs]

end Level.Continues

/-! ### Readers that correspond -/

namespace Reader

/-- The levels of two readers and those of the groups that are open for them correspond. The second
reader has the branches `old` before and the groups `outer` around what the first one has. -/
inductive Nested (old : List Expr) (outer : List OpenGroup) :
    Level → List OpenGroup → Level → List OpenGroup → Prop
  | outside {k m : Level} : k.Continues old m → Nested old outer k [] m outer
  | inside {k m : Level} {g h : OpenGroup} {gs hs : List OpenGroup} : k.Continues [] m →
      h.kind.captures = g.kind.captures → h.kind.isFlagless = true → g.verbose = false →
        h.verbose = false → Nested old outer g.around gs h.around hs →
          Nested old outer k (g :: gs) m (h :: hs)

lemma Nested.continues {old : List Expr} {outer gs hs : List OpenGroup} {k m : Level}
    (h : Nested old outer k gs m hs) : ∃ old, k.Continues old m := by
  cases h with
  | outside continues => exact ⟨old, continues⟩
  | inside continues => exact ⟨[], continues⟩

/-- Levels that correspond may be changed in the same way. -/
lemma Nested.imp {old : List Expr} {outer gs hs : List OpenGroup} {k m k' m' : Level}
    (h : Nested old outer k gs m hs)
    (change : ∀ {old : List Expr}, k.Continues old m → k'.Continues old m') :
    Nested old outer k' gs m' hs := by
  cases h with
  | outside continues => exact .outside (change continues)
  | inside continues captures flagless terse terse' nested =>
    exact .inside (change continues) captures flagless terse terse' nested

/-- The reader `s` reads in its place what the reader `r` reads alone, with the branches `old`
before, the groups `outer` around and the characters `tail` behind it. The names `taken` stand
before, those in `inner` are names of the groups that are read. -/
structure Follows (old : List Expr) (outer : List OpenGroup) (taken : List (String × Span))
    (inner : List String) (tail : List Char) (r s : Reader) : Prop where
  terse : r.cursor.verbose = false
  terse' : s.cursor.verbose = false
  rest : s.cursor.rest = r.cursor.rest ++ tail
  nested : Nested old outer r.level r.groups s.level s.groups
  names : ∀ other ∈ s.names,
    other ∈ taken ∨ other.1 ∈ inner ∧ ∃ mine ∈ r.names, mine.1 = other.1

namespace Follows

variable {old : List Expr} {outer : List OpenGroup} {taken : List (String × Span)}
  {inner : List String} {tail more : List Char} {r s : Reader} {x : Char}

/-- When both readers read the same item, they go on alike. -/
lemma push {d e : Cursor} {t u : Tree} (h : r.Follows old outer taken inner tail s)
    (reads : s.Reads (s.push u e) (more ++ tail)) (behind : d.rest = more)
    (terse : d.verbose = false) (same : u.toExpr = t.toExpr) (plain : u.isPlain = true) :
    ∃ s', s.run = s'.run ∧ (r.push t d).Follows old outer taken inner tail s' :=
  ⟨s.push u e, reads.run, terse, reads.terse, reads.rest.trans (by rw [← behind]; rfl),
    h.nested.imp fun continues => continues.push same plain, h.names⟩

/-- Both readers read a character without a meaning of its own. -/
lemma literal (h : r.Follows old outer taken inner tail s) (under : r.cursor.rest = x :: more)
    (ordinary : x ∉ syntaxCharacters) : ∃ s', s.run = s'.run ∧
      (r.push (.literal r.cursor.current .verbatim x) r.cursor.next).Follows old outer taken inner
        tail s' := by
  have under' : s.cursor.rest = x :: (more ++ tail) := by rw [h.rest, under, List.cons_append]
  obtain ⟨u, e, reads, -, plain, same⟩ := exists_reads_literal h.terse' under' ordinary
  refine h.push reads ?_ ?_ same plain
  · rw [Cursor.rest_next, under, List.tail_cons]
  · rw [Cursor.verbose_next, h.terse]

/-- Both readers read a backslash and the character behind it. -/
lemma escape {t : Tree} {d : Cursor} (h : r.Follows old outer taken inner tail s)
    (under : r.cursor.rest = '\\' :: more) (read : r.cursor.readEscape = .ok (t, d))
    (plain : t.isPlain = true) :
    ∃ s', s.run = s'.run ∧ (r.push t d).Follows old outer taken inner tail s' := by
  obtain ⟨y, next, allowed, rfl, same⟩ := (Cursor.readEscape_eq_ok read).2 plain
  have rest : more = y :: r.cursor.next.next.rest := by
    rw [← Cursor.rest_eq_cons next, Cursor.rest_next, under, List.tail_cons]
  have under' : s.cursor.rest = '\\' :: y :: (r.cursor.next.next.rest ++ tail) := by
    rw [h.rest, under, rest, List.cons_append, List.cons_append]
  obtain ⟨u, e, reads, -, plain', same'⟩ := exists_reads_escape h.terse' under' allowed
  refine h.push reads rfl ?_ (same'.trans same.symm) plain'
  rw [Cursor.verbose_next, Cursor.verbose_next, h.terse]

/-- Both readers open a group of the same name. -/
lemma opening {kind : GroupKind} {d : Cursor} (h : r.Follows old outer taken inner tail s)
    (apart : ∀ other ∈ taken, other.1 ∉ inner) (ends : tail.head? ≠ some '?')
    (under : r.cursor.rest = '(' :: more)
    (read : r.cursor.readOpening r.names = .ok (.group kind, d)) (group : kind.IsFlaglessIn inner) :
    ∃ s', s.run = s'.run ∧ (r.opened kind d).Follows old outer taken inner tail s' := by
  obtain ⟨text, opens, rfl, bare, fresh⟩ :=
    Cursor.opens_of_readOpening h.terse under read group.1
  have under' : s.cursor.rest = '(' :: (text ++ (d.rest ++ tail)) := by
    rw [h.rest, under, List.cons_append, List.append_assoc]
  have fresh' : ∀ n ∈ kind.name?.map Prod.fst, ∀ other ∈ s.names, other.1 ≠ n := by
    rintro n mem other mem' rfl
    obtain ⟨named, mem, eq⟩ := Option.mem_map.1 mem
    rcases h.names other mem' with before | ⟨-, mine, mem'', eq'⟩
    · exact apart other before (eq ▸ group.2 named mem)
    · exact fresh other.1 (Option.mem_map.2 ⟨named, mem, eq⟩) mine mem'' eq'
  obtain ⟨kind', d', reads, captures, name, flagless⟩ := exists_reads_opening h.terse' opens under'
    (fun none => head?_append_ne (bare none) ends) fresh'
  refine ⟨_, reads.run, ?_, reads.terse, reads.rest, ?_, ?_⟩
  · rw [opened, Opening.verbose?_of_isFlagless group.1]
    exact h.terse
  · exact .inside (.start _ _) captures flagless h.terse h.terse' h.nested
  · intro other mem
    rcases List.mem_append.1 mem with new | before
    · rw [Option.mem_toList.1 new, Option.map_some] at name
      obtain ⟨mine, mine_eq, eq⟩ := Option.map_eq_some_iff.1 name.symm
      refine .inr ⟨eq ▸ group.2 mine mine_eq, mine, ?_, eq⟩
      exact List.mem_append_left _ (Option.mem_toList.2 mine_eq)
    · rcases h.names other before with taken | ⟨inside, mine, mem', eq⟩
      · exact .inl taken
      · exact .inr ⟨inside, mine, List.mem_append_right _ mem', eq⟩

/-- Both readers close a group. -/
lemma closing {g : OpenGroup} {groups : List OpenGroup}
    (h : r.Follows old outer taken inner tail s) (under : r.cursor.rest = ')' :: more)
    (open_ : r.groups = g :: groups) (plain : r.level.Holds (·.isPlain = true))
    (some : r.level.items ≠ []) :
    ∃ s', s.run = s'.run ∧ (r.closed g groups).Follows old outer taken inner tail s' := by
  have under' : s.cursor.rest = ')' :: (more ++ tail) := by
    rw [h.rest, under, List.cons_append]
  have nested := h.nested
  rw [open_] at nested
  generalize inside : s.groups = hs at nested
  -- the first reader has a group open, so a group that corresponds is open for the second one
  cases nested with
  | inside continues captures flagless terse terse' nested =>
    have reads := reads_closing h.terse' under' inside terse'
    refine ⟨_, reads.run, terse, reads.terse, ?_, ?_, h.names⟩
    · rw [reads.rest, closed, Cursor.rest_next, under, List.tail_cons]
    · refine nested.imp fun around => around.push ?_ ?_
      · rw [Tree.toExpr, Tree.toExpr, Level.toExpr_body _ continues.plain,
          Level.toExpr_body _ plain, continues.exprs, List.nil_append, captures]
      · rw [Tree.isPlain, flagless, (Level.isPlain_body _ continues.plain).2
          (continues.items_ne_nil some), Bool.and_self]

/-- Both readers end a branch. -/
lemma bar (h : r.Follows old outer taken inner tail s) (under : r.cursor.rest = '|' :: more)
    (plain : ∀ t ∈ r.level.items, t.isPlain = true) (some : r.level.items ≠ []) :
    ∃ s', s.run = s'.run ∧ r.nextBranch.Follows old outer taken inner tail s' := by
  have under' : s.cursor.rest = '|' :: (more ++ tail) := by
    rw [h.rest, under, List.cons_append]
  have reads := reads_bar h.terse' under'
  refine ⟨_, reads.run, ?_, reads.terse, ?_, ?_, h.names⟩
  · rw [Reader.nextBranch, Cursor.verbose_next, h.terse]
  · rw [reads.rest, Reader.nextBranch, Cursor.rest_next, under, List.tail_cons]
  · exact h.nested.imp fun continues => continues.nextBranch plain some _ _ _ _

/-- Both readers repeat the last item. -/
lemma quantified {kind : QuantifierKind} {t : Tree} {items : List Tree} {q : Quantifier}
    {d : Cursor} (h : r.Follows old outer taken inner tail s) (ends : tail.head? ≠ some '?')
    (under : r.cursor.rest = x :: more) (written : QuantifierKind.ofCharacter? x = some kind)
    (operand : r.level.operand? = some (t, items))
    (read : r.cursor.readUncounted kind = (q, d)) (supported : q.kind.isSupported = true) :
    ∃ s', s.run = s'.run ∧ (r.repeated t items q d).Follows old outer taken inner tail s' := by
  obtain ⟨rfl, behind, bare, verbose⟩ := Cursor.readUncounted_eq read
  rw [Cursor.rest_next, under, List.tail_cons] at behind
  have under' : s.cursor.rest = x :: (lazyMark q.greedy ++ (d.rest ++ tail)) := by
    rw [h.rest, under, behind, List.cons_append, List.append_assoc]
  have last := Level.items_of_operand operand
  obtain ⟨_, continues⟩ := h.nested.continues
  obtain ⟨u, us, last', plain, same⟩ := continues.items_eq_cons last
  obtain ⟨e, reads⟩ := exists_reads_quantifier h.terse' written under'
    (fun greedy => head?_append_ne (bare greedy) ends) last' plain
  refine ⟨_, reads.run, verbose.trans h.terse, reads.terse, reads.rest, ?_, h.names⟩
  refine h.nested.imp fun continues => continues.replace last last' ?_ ?_
  · rw [Tree.toExpr, Tree.toExpr, same]
  · rw [Tree.isPlain, supported, plain, Bool.and_self]

/-- When the reader of the pattern alone makes a step, the other reader goes on alike, as long as
everything that is read is plain. -/
lemma step {r' : Reader} (h : r.Follows old outer taken inner tail s)
    (apart : ∀ other ∈ taken, other.1 ∉ inner) (ends : tail.head? ≠ some '?')
    (under : r.cursor.rest = x :: more) (step : r.Step x r')
    (holds : r'.Holds (Tree.IsPlainIn inner) (GroupKind.IsFlaglessIn inner)) :
    ∃ s', s.run = s'.run ∧ r'.Follows old outer taken inner tail s' := by
  -- what is plain after the step was plain before, which rules out all other constructs
  have before := holds_of_step (Tree.hereditary_isPlainIn inner) step holds
  have plain := before.level.isPlain
  have item : ∀ {t : Tree} {d : Cursor}, r' = r.push t d → t.isPlain = true := by
    rintro t d rfl
    exact (Level.holds_push.1 holds.level).1.1
  cases step with
  | opening read => exact h.opening apart ends under read (holds.groups _ List.mem_cons_self).1
  | directive read => cases item rfl
  | closing open_ =>
    have group := (Level.holds_push.1 holds.level).1.1
    rw [Tree.isPlain, Bool.and_eq_true, Level.isPlain_body _ plain] at group
    exact h.closing under open_ plain group.2
  | bar =>
    have branch := (holds.level.branches _ List.mem_cons_self).1
    exact h.bar under plain.items ((Level.isPlain_branch _ plain.items).1 branch)
  | bracketed read =>
    have plain := item rfl
    rw [(Cursor.readClass_eq_ok read).2] at plain
    cases plain
  | quantified written operand read =>
    have repetition := (holds.level.items _ List.mem_cons_self).1
    rw [Tree.isPlain, Bool.and_eq_true] at repetition
    exact h.quantified ends under written operand read repetition.1
  | counted operand read =>
    have repetition := (holds.level.items _ List.mem_cons_self).1
    rw [Tree.isPlain, Cursor.isSupported_of_readCounted read, Bool.false_and] at repetition
    cases repetition
  | escape read => exact h.escape under read (item rfl)
  | dot => cases item rfl
  | anchor _ => cases item rfl
  | literal ordinary => exact h.literal under ordinary

/-- When the reader of the pattern alone comes to the end with a plain tree, the other reader comes
to the characters behind the pattern. -/
theorem run {t : Tree} (h : r.Follows old outer taken inner tail s)
    (apart : ∀ other ∈ taken, other.1 ∉ inner) (ends : tail.head? ≠ some '?')
    (run : r.run = .ok t) (plain : t.IsPlainIn inner) :
    ∃ (r' s' : Reader) (p : Position), s.run = s'.run ∧ r'.Follows old outer taken inner tail s' ∧
      r'.cursor.rest = [] ∧ r'.groups = [] ∧ r'.level.body p = t := by
  fun_induction Reader.run r generalizing s with
  | case1 r c =>
    have here : c = r.cursor := Cursor.skip_of_terse h.terse
    clear_value c
    subst here
    unfold finish at run
    split at run <;> cases run
    exact ⟨r, s, _, rfl, h, ‹_›, ‹_›, rfl⟩
  | case2 => cases run
  | case3 r c x more under r' step =>
    rename_i ih
    -- outside verbose mode nothing is skipped, so the step is made at the cursor itself
    have here : c = r.cursor := Cursor.skip_of_terse h.terse
    clear_value c
    subst here
    have holds := holds_of_run (Tree.hereditary_isPlainIn inner) run plain
    obtain ⟨s', same, h'⟩ := h.step apart ends under (step_eq_ok_iff.1 step) holds
    obtain ⟨r'', s'', p, same', rest⟩ := ih h' run
    exact ⟨r'', s'', p, same.trans same', rest⟩

end Follows

/-- A pattern with a plain tree is read in the same way wherever it stands, if the names of its
groups are not taken: its branches are added to those that stand there before. -/
theorem exists_reads_pattern {pattern : String} {t : Tree} {s : Reader} {tail : List Char}
    (run : (ofString pattern).run = .ok t) (plain : t.isPlain = true)
    (terse : s.cursor.verbose = false) (under : s.cursor.rest = pattern.toList ++ tail)
    (ends : tail.head? ≠ some '?') (fresh : ∀ other ∈ s.names, other.1 ∉ t.names)
    (holds : s.level.Holds (·.isPlain = true)) (empty : s.level.items = []) :
    ∃ (k m : Level) (d : Cursor) (names : List (String × Span)),
      s.Reads ⟨d, m, s.groups, names⟩ tail ∧ k.Continues s.level.endedExprs m ∧
        m.items ≠ [] ∧ .ofBranches k.exprs = t.toExpr ∧
          ∀ other ∈ names, other ∈ s.names ∨ other.1 ∈ t.names := by
  have start : (ofString pattern).Follows s.level.endedExprs s.groups s.names t.names tail s :=
    { terse := rfl
      terse' := terse
      rest := under
      nested := .outside ⟨(List.append_nil _).symm, by simp [Level.itemExprs, empty]; rfl, holds⟩
      names := fun other mem => .inl mem }
  obtain ⟨r', s', p, same, follows, stop, none, rfl⟩ :=
    start.run fresh ends run ⟨plain, fun n mem => mem⟩
  have reads : s.Reads s' tail :=
    ⟨same, by rw [follows.rest, stop, List.nil_append], follows.terse'⟩
  have holds' := Level.holds_of_body (Tree.hereditary_isPlainIn _) ⟨plain, fun n mem => mem⟩
  have plain' := holds'.isPlain
  have nested := follows.nested
  rw [none] at nested
  generalize outer : s'.groups = groups at nested
  cases nested with
  | outside continues =>
    refine ⟨r'.level, s'.level, s'.cursor, s'.names, ?_, continues, ?_, ?_, ?_⟩
    · rw [← outer]
      exact reads
    · exact continues.items_ne_nil ((Level.isPlain_body p plain').1 plain)
    · exact (Level.toExpr_body p plain').symm
    · exact fun other mem => (follows.names other mem).imp_right And.left

end Reader

end PatternAutomata
