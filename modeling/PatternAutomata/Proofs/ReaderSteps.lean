import PatternAutomata.Proofs.Spelling

/-!
# Steps of the reader of patterns

What a step of the reader does depends on the character under the cursor: `Reader.Step` lists all
that a step can do, with the guards under which it succeeds, and a step succeeds with a result
exactly when it is listed there (`Reader.step_eq_ok_iff`). Everything else about the reader is
derived from this list.

The first facts derived from it are two invariants. The reader drops nothing: what is true of the
tree at the end, and passes to the parts of trees, is true of all that the reader holds before
(`Reader.holds_of_run`). And the reader makes only readable trees (`Tree.readable_of_ofPattern`):
every directive sets some flag, because one without flags is refused, and a single item or branch
becomes no concatenation or alternation.
-/

namespace PatternAutomata

/-- The characters that have a meaning of their own in a pattern. -/
def syntaxCharacters : List Char := ['(', ')', '|', '[', '?', '*', '+', '\x7b', '\\', '.', '^', '$']

/-- The kind of quantifier that a single character writes. -/
def QuantifierKind.ofCharacter? : Char → Option QuantifierKind
  | '?' => some zeroOrOne
  | '*' => some zeroOrMore
  | '+' => some oneOrMore
  | _ => none

namespace Reader

open Cursor

/-- The reader behind the opening of a group, which ends before the cursor `d`. -/
def opened (r : Reader) (kind : GroupKind) (d : Cursor) : Reader :=
  let e : Cursor := { d with verbose := (Opening.group kind).verbose?.getD r.cursor.verbose }
  ⟨e, .start e.pos, ⟨r.level, r.cursor.current, kind, r.cursor.verbose⟩ :: r.groups,
    kind.name?.toList ++ r.names⟩

/-- The reader behind a directive, which ends before the cursor `d`. -/
def directed (r : Reader) (flags : String) (d : Cursor) : Reader :=
  let e : Cursor := { d with verbose := (Opening.directive flags).verbose?.getD r.cursor.verbose }
  r.push (.flags (r.cursor.spanTo e) flags) e

/-- The reader behind the end of the group `g`, which leaves the groups `groups` open. -/
def closed (r : Reader) (g : OpenGroup) (groups : List OpenGroup) : Reader :=
  let d : Cursor := { r.cursor.next with verbose := g.verbose }
  let group := Tree.group ⟨g.opening.start, d.pos⟩ g.kind (r.level.body r.cursor.pos)
  { r with cursor := d, level := g.around.push group, groups }

/-- What a step of the reader does at a character, and the reader after it. -/
inductive Step (r : Reader) : Char → Reader → Prop
  | opening {kind : GroupKind} {d : Cursor} :
      r.cursor.readOpening r.names = .ok (.group kind, d) → Step r '(' (r.opened kind d)
  | directive {flags : String} {d : Cursor} :
      r.cursor.readOpening r.names = .ok (.directive flags, d) → Step r '(' (r.directed flags d)
  | closing {g : OpenGroup} {groups : List OpenGroup} :
      r.groups = g :: groups → Step r ')' (r.closed g groups)
  | bar : Step r '|' r.nextBranch
  | bracketed {t : Tree} {d : Cursor} :
      r.cursor.readClass = .ok (t, d) → Step r '[' (r.push t d)
  | quantified {x : Char} {kind : QuantifierKind} {t : Tree} {items : List Tree} {q : Quantifier}
      {d : Cursor} : QuantifierKind.ofCharacter? x = some kind →
        r.level.operand? = some (t, items) → r.cursor.readUncounted kind = (q, d) →
          Step r x (r.repeated t items q d)
  | counted {t : Tree} {items : List Tree} {q : Quantifier} {d : Cursor} :
      r.level.operand? = some (t, items) → r.cursor.readCounted = .ok (q, d) →
        Step r '\x7b' (r.repeated t items q d)
  | escape {t : Tree} {d : Cursor} :
      r.cursor.readEscape = .ok (t, d) → Step r '\\' (r.push t d)
  | dot : Step r '.' (r.push (.dot r.cursor.current) r.cursor.next)
  | anchor {x : Char} {text : String} : x = '^' ∧ text = "^" ∨ x = '$' ∧ text = "$" →
      Step r x (r.push (.assertion r.cursor.current text) r.cursor.next)
  | literal {x : Char} : x ∉ syntaxCharacters →
      Step r x (r.push (.literal r.cursor.current .verbatim x) r.cursor.next)

variable {r s : Reader} {x : Char}

/-- What an opening parenthesis begins decides what the reader does. -/
lemma openGroup_eq (r : Reader) : r.openGroup =
    match r.cursor.readOpening r.names with
    | .error refusal => .error refusal
    | .ok (.directive flags, d) => .ok (r.directed flags d)
    | .ok (.group kind, d) => .ok (r.opened kind d) := by
  unfold openGroup
  rcases r.cursor.readOpening r.names with refusal | ⟨_ | _, d⟩ <;> rfl

/-- What the reader `read` reads becomes an item. -/
lemma pushRead_eq (r : Reader) (read : Cursor → Except Refusal (Tree × Cursor)) : r.pushRead read =
    match read r.cursor with
    | .error refusal => .error refusal
    | .ok (t, d) => .ok (r.push t d) := by
  unfold pushRead
  rcases read r.cursor with refusal | ⟨t, d⟩ <;> rfl

/-- A counted quantifier takes the last item, if it can be repeated. -/
lemma repeatCounted_eq (r : Reader) : r.repeatCounted =
    match r.level.operand? with
    | none => refuse .operandMissing r.cursor.here
    | some (operand, items) =>
      match r.cursor.readCounted with
      | .error refusal => .error refusal
      | .ok (q, d) => .ok (r.repeated operand items q d) := by
  unfold repeatCounted
  rcases r.level.operand? with _ | ⟨operand, items⟩
  · rfl
  · rcases r.cursor.readCounted with refusal | ⟨q, d⟩ <;> rfl

/-- A quantifier of one character takes the last item, if it can be repeated. -/
lemma step_of_repeatUncounted {kind : QuantifierKind}
    (hx : QuantifierKind.ofCharacter? x = some kind) (h : r.repeatUncounted kind = .ok s) :
    r.Step x s := by
  unfold repeatUncounted at h
  split at h
  · cases h
  · cases h
    exact .quantified hx ‹_› rfl

/-- A step succeeds exactly as the list of steps says. -/
theorem step_eq_ok_iff : r.step x = .ok s ↔ r.Step x s := by
  constructor
  -- one case for each branch of the definition, in its order
  · intro h
    unfold step at h
    split at h
    · rw [openGroup_eq] at h
      split at h <;> cases h
      · exact .directive ‹_›
      · exact .opening ‹_›
    · unfold closeGroup at h
      split at h <;> cases h
      exact .closing ‹_›
    · cases h
      exact .bar
    · rw [pushRead_eq] at h
      split at h <;> cases h
      exact .bracketed ‹_›
    · exact step_of_repeatUncounted rfl h
    · exact step_of_repeatUncounted rfl h
    · exact step_of_repeatUncounted rfl h
    · rw [repeatCounted_eq] at h
      split at h
      · cases h
      · split at h <;> cases h
        exact .counted ‹_› ‹_›
    · rw [pushRead_eq] at h
      split at h <;> cases h
      exact .escape ‹_›
    · cases h
      exact .dot
    · cases h
      exact .anchor (.inl ⟨rfl, rfl⟩)
    · cases h
      exact .anchor (.inr ⟨rfl, rfl⟩)
    · cases h
      refine .literal ?_
      simp only [syntaxCharacters, List.mem_cons, List.not_mem_nil, or_false]
      tauto
  · rintro (read | read | groups | _ | read | ⟨hx, operand, read⟩ | ⟨operand, read⟩ | read | _ |
      (⟨rfl, rfl⟩ | ⟨rfl, rfl⟩) | ordinary)
    · exact (openGroup_eq r).trans (by rw [read])
    · exact (openGroup_eq r).trans (by rw [read])
    · change r.closeGroup = _
      rw [closeGroup, groups]
      rfl
    · rfl
    · exact (pushRead_eq r _).trans (by rw [read])
    · unfold QuantifierKind.ofCharacter? at hx
      split at hx <;> cases hx
      all_goals
        change r.repeatUncounted _ = _
        simp only [repeatUncounted, operand, read]
    · exact (repeatCounted_eq r).trans (by rw [operand, read])
    · exact (pushRead_eq r _).trans (by rw [read])
    · rfl
    · rfl
    · rfl
    · simp only [syntaxCharacters, List.mem_cons, List.not_mem_nil, or_false, not_or] at ordinary
      unfold step
      split <;> simp_all

/-! ### Runs -/

/-- Outside verbose mode a run goes on behind each step. -/
lemma run_of_step {rest : List Char} (terse : r.cursor.verbose = false)
    (under : r.cursor.rest = x :: rest) (step : r.Step x s) : r.run = s.run := by
  have ok := step_eq_ok_iff.2 step
  have same : { r with cursor := r.cursor.skip } = r := by rw [skip_of_terse terse]
  rw [run]
  split
  · simp_all [skip_of_terse terse]
  · rename_i y more here
    rw [skip_of_terse terse, under] at here
    obtain ⟨rfl, -⟩ := List.cons.inj here
    split <;> simp_all

/-- Outside verbose mode a run ends at the end of the pattern. -/
lemma run_of_end (terse : r.cursor.verbose = false) (under : r.cursor.rest = []) :
    r.run = r.finish := by
  have same : { r with cursor := r.cursor.skip } = r := by rw [skip_of_terse terse]
  rw [run]
  split
  · rw [same]
  · simp_all [skip_of_terse terse]

end Reader

/-! ### What the reader holds -/

/-- All trees that have been read of the inside of a group have a property. -/
structure Level.Holds (Q : Tree → Prop) (k : Level) : Prop where
  branches : ∀ t ∈ k.branches, Q t
  items : ∀ t ∈ k.items, Q t

/-- All trees that have been read have the property `Q`, and the kinds of the open groups have the
property `G`. -/
structure Reader.Holds (Q : Tree → Prop) (G : GroupKind → Prop) (r : Reader) : Prop where
  level : r.level.Holds Q
  groups : ∀ g ∈ r.groups, G g.kind ∧ g.around.Holds Q

/-- A property of trees that passes to their parts, together with what it says of groups. -/
structure Tree.Hereditary (Q : Tree → Prop) (G : GroupKind → Prop) : Prop where
  repetition : ∀ {span q t}, Q (.repetition span q t) → Q t
  group : ∀ {span kind t}, Q (.group span kind t) → G kind ∧ Q t
  alternation : ∀ {span ts}, Q (.alternation span ts) → ∀ t ∈ ts, Q t
  concat : ∀ {span ts}, Q (.concat span ts) → ∀ t ∈ ts, Q t

namespace Level

variable {Q : Tree → Prop} {G : GroupKind → Prop} {k : Level} {t : Tree}

lemma holds_start (p : Position) : (start p).Holds Q :=
  ⟨List.forall_mem_nil Q, List.forall_mem_nil Q⟩

/-- Another item adds its property. -/
lemma holds_push : (k.push t).Holds Q ↔ Q t ∧ k.Holds Q :=
  ⟨fun h => ⟨h.items t List.mem_cons_self, h.branches, (List.forall_mem_cons.1 h.items).2⟩,
    fun h => ⟨h.2.branches, List.forall_mem_cons.2 ⟨h.1, h.2.items⟩⟩⟩

/-- The operand of a quantifier is the last item. -/
lemma items_of_operand {items : List Tree} (h : k.operand? = some (t, items)) :
    k.items = t :: items := by
  unfold operand? at h
  split at h <;> simp_all

/-- A property of a branch passes to its items. -/
lemma forall_of_branch (hereditary : Tree.Hereditary Q G) {stop : Position}
    (h : Q (k.branch stop)) : ∀ t ∈ k.items, Q t := by
  unfold branch at h
  split at h
  · simp_all
  · simp_all
  · intro t ht
    exact hereditary.concat h t (List.mem_reverse.2 ht)

/-- A property of the inside of a group passes to all that has been read of it. -/
lemma holds_of_body (hereditary : Tree.Hereditary Q G) {stop : Position}
    (h : Q (k.body stop)) : k.Holds Q := by
  unfold body at h
  split at h
  · refine ⟨?_, forall_of_branch hereditary h⟩
    simp_all
  · have branches := hereditary.alternation h
    exact ⟨fun t ht => branches t (by simp [ht]),
      forall_of_branch hereditary (branches (k.branch stop) (by simp))⟩

end Level

namespace Reader

variable {Q : Tree → Prop} {G : GroupKind → Prop} {r s : Reader} {x : Char} {t : Tree}

/-- A step drops nothing that has been read. -/
lemma holds_of_step (hereditary : Tree.Hereditary Q G) (step : r.Step x s) (h : s.Holds Q G) :
    r.Holds Q G := by
  obtain ⟨level, groups⟩ := h
  cases step with
  | opening _ =>
    obtain ⟨new, groups⟩ := List.forall_mem_cons.1 groups
    exact ⟨new.2, groups⟩
  | directive _ => exact ⟨(Level.holds_push.1 level).2, groups⟩
  | closing open_ =>
    obtain ⟨group, around⟩ := Level.holds_push.1 level
    obtain ⟨kind, body⟩ := hereditary.group group
    refine ⟨Level.holds_of_body hereditary body, ?_⟩
    rw [open_]
    exact List.forall_mem_cons.2 ⟨⟨kind, around⟩, groups⟩
  | bar =>
    obtain ⟨last, branches⟩ := List.forall_mem_cons.1 level.branches
    exact ⟨⟨branches, Level.forall_of_branch hereditary last⟩, groups⟩
  | quantified _ operand _ | counted operand _ =>
    obtain ⟨repetition, items⟩ := List.forall_mem_cons.1 level.items
    refine ⟨⟨level.branches, ?_⟩, groups⟩
    rw [Level.items_of_operand operand]
    exact List.forall_mem_cons.2 ⟨hereditary.repetition repetition, items⟩
  | bracketed _ | escape _ | dot | anchor _ | literal _ =>
    exact ⟨(Level.holds_push.1 level).2, groups⟩

/-- The reader drops nothing: what is true of the tree at the end, and passes to the parts of trees,
is true of all that the reader holds before. -/
theorem holds_of_run (hereditary : Tree.Hereditary Q G) (run : r.run = .ok t) (h : Q t) :
    r.Holds Q G := by
  fun_induction Reader.run r with
  | case1 r c _ =>
    unfold finish at run
    split at run
    · cases run
      exact ⟨Level.holds_of_body hereditary h, by simp_all⟩
    · cases run
  | case2 => cases run
  | case3 r c x rest _ s step ih =>
    obtain ⟨level, groups⟩ := holds_of_step hereditary (step_eq_ok_iff.1 step) (ih run)
    exact ⟨level, groups⟩

end Reader

/-! ### What the reader makes -/

/-- The trees that a reader makes: every directive sets some flag, and alternations and
concatenations have at least two parts. -/
inductive Tree.Readable : Tree → Prop
  | leaf {t : Tree} : t.isLeaf = true → Readable t
  | flags {span : Span} {text : String} : text.isEmpty = false → Readable (.flags span text)
  | repetition {span : Span} {q : Quantifier} {t : Tree} :
      Readable t → Readable (.repetition span q t)
  | group {span : Span} {kind : GroupKind} {t : Tree} : Readable t → Readable (.group span kind t)
  | alternation {span : Span} {ts : List Tree} :
      2 ≤ ts.length → (∀ t ∈ ts, Readable t) → Readable (.alternation span ts)
  | concat {span : Span} {ts : List Tree} :
      2 ≤ ts.length → (∀ t ∈ ts, Readable t) → Readable (.concat span ts)

namespace Cursor

variable {c d : Cursor} {t : Tree}

/-- A class in brackets is a single node, and it is not plain. -/
lemma readClass_eq_ok (h : c.readClass = .ok (t, d)) : t.isLeaf = true ∧ t.isPlain = false := by
  simp only [readClass, bind, Except.bind, pure, Except.pure] at h
  split at h
  · cases h
  · split at h <;> cases h
    exact ⟨rfl, rfl⟩

/-- A directive without flags is refused. -/
lemma isEmpty_of_readOpening {names : List (String × Span)} {flags : String}
    (h : c.readOpening names = .ok (.directive flags, d)) : flags.isEmpty = false := by
  simp only [readOpening, refuse, bind, Except.bind, pure, Except.pure] at h
  grind

end Cursor

namespace Level

variable {k : Level}

/-- A branch has the items that have been read. -/
lemma readable_branch (stop : Position) (h : ∀ t ∈ k.items, t.Readable) :
    (k.branch stop).Readable := by
  unfold branch
  generalize k.items = items at h ⊢
  rcases items with _ | ⟨t, _ | ⟨u, ts⟩⟩
  · exact .leaf rfl
  · exact h t List.mem_cons_self
  · refine .concat (by simp) ?_
    intro t ht
    exact h t (List.mem_reverse.1 ht)

/-- The inside of a group has the branches that have been read. -/
lemma readable_body (stop : Position) (h : k.Holds Tree.Readable) : (k.body stop).Readable := by
  have branch := readable_branch stop h.items
  obtain ⟨ended, -⟩ := h
  unfold body
  generalize k.branches = branches at ended ⊢
  rcases branches with _ | ⟨b, bs⟩
  · exact branch
  · refine .alternation (by simp) ?_
    intro t ht
    rcases List.mem_cons.1 (List.mem_reverse.1 ht) with rfl | ht
    · exact branch
    · exact ended t ht

end Level

namespace Reader

variable {r s : Reader} {x : Char} {t : Tree}

/-- A step makes readable trees of readable trees. -/
lemma readable_of_step (step : r.Step x s) (h : r.Holds Tree.Readable fun _ => True) :
    s.Holds Tree.Readable fun _ => True := by
  obtain ⟨level, groups⟩ := h
  cases step with
  | opening _ => exact ⟨Level.holds_start _, List.forall_mem_cons.2 ⟨⟨trivial, level⟩, groups⟩⟩
  | directive read =>
    exact ⟨Level.holds_push.2 ⟨.flags (Cursor.isEmpty_of_readOpening read), level⟩, groups⟩
  | closing open_ =>
    rw [open_] at groups
    obtain ⟨⟨-, around⟩, groups⟩ := List.forall_mem_cons.1 groups
    exact ⟨Level.holds_push.2 ⟨.group (Level.readable_body _ level), around⟩, groups⟩
  | bar =>
    exact ⟨⟨List.forall_mem_cons.2 ⟨Level.readable_branch _ level.items, level.branches⟩,
      List.forall_mem_nil _⟩, groups⟩
  | quantified _ operand _ | counted operand _ =>
    have items := level.items
    rw [Level.items_of_operand operand] at items
    obtain ⟨last, before⟩ := List.forall_mem_cons.1 items
    exact ⟨⟨level.branches, List.forall_mem_cons.2 ⟨.repetition last, before⟩⟩, groups⟩
  | bracketed read =>
    exact ⟨Level.holds_push.2 ⟨.leaf (Cursor.readClass_eq_ok read).1, level⟩, groups⟩
  | escape read =>
    exact ⟨Level.holds_push.2 ⟨.leaf (Cursor.readEscape_eq_ok read).1, level⟩, groups⟩
  | dot | anchor _ | literal _ => exact ⟨Level.holds_push.2 ⟨.leaf rfl, level⟩, groups⟩

/-- A run that has made readable trees ends with one. -/
theorem readable_of_run (h : r.Holds Tree.Readable fun _ => True) (run : r.run = .ok t) :
    t.Readable := by
  fun_induction Reader.run r with
  | case1 r c _ =>
    unfold finish at run
    split at run <;> cases run
    exact Level.readable_body _ h.level
  | case2 => cases run
  | case3 r c x rest _ s step ih =>
    exact ih (readable_of_step (step_eq_ok_iff.1 step) ⟨h.level, h.groups⟩) run

end Reader

namespace Tree

variable {pattern : String} {t : Tree}

/-- The syntax tree of a pattern is what the reader reads. -/
lemma run_of_ofPattern (h : ofPattern pattern = .ok t) : (Reader.ofString pattern).run = .ok t := by
  unfold ofPattern at h
  cases run : (Reader.ofString pattern).run with
  | error refusal =>
    rw [run] at h
    cases h
  | ok u =>
    rw [run] at h
    simp only [bind, Except.bind, pure, Except.pure, refuse] at h
    split at h <;> cases h
    rfl

/-- The syntax tree of a pattern is readable. -/
theorem readable_of_ofPattern (h : ofPattern pattern = .ok t) : t.Readable :=
  Reader.readable_of_run ⟨Level.holds_start _, List.forall_mem_nil _⟩ (run_of_ofPattern h)

/-- Every directive in a readable tree sets some flag. -/
lemma Readable.isProper (h : t.Readable) : t.isProper = true := by
  induction h with
  | @leaf t leaf => cases t <;> first | rfl | cases leaf
  | flags some => rw [Tree.isProper, some, Bool.not_false]
  | repetition _ ih => exact ih
  | group _ ih => exact ih
  | alternation _ _ ih => exact (allProper_iff _).2 ih
  | concat _ _ ih => exact (allProper_iff _).2 ih

end Tree

end PatternAutomata
