import PatternAutomata.Proofs.Places
import PatternAutomata.Proofs.ReaderSteps

/-!
# Where patterns set flags

A directive sets flags, and so may a group that does not capture. The settings of a tree are those
of its nodes, each with the place where the node opens; their texts together are the flags of the
expression (`Tree.join_settings`). A step of the reader adds at most one setting behind all others,
at the parenthesis under the cursor (`Reader.settings_of_step`), and the cursor only moves on, so
the settings of the tree of a pattern come in the order in which they open in the pattern
(`Tree.inOrder_of_ofPattern`).
-/

namespace PatternAutomata

/-- Flags that a node of a pattern sets, and the place where the node opens. -/
structure Setting where
  place : Position
  text : String
deriving DecidableEq, Repr

/-- What a group of a kind sets, when it opens at a place. -/
def GroupKind.setting? (place : Position) : GroupKind → Option Setting
  | plain flags => if flags.isEmpty then none else some ⟨place, flags⟩
  | _ => none

namespace Tree

/-- What a node sets itself, apart from its parts. -/
def setting? : Tree → Option Setting
  | flags span text => some ⟨span.start, text⟩
  | group span kind _ => kind.setting? span.start
  | _ => none

mutual

/-- The nodes of a tree, each before its parts, from left to right. -/
def nodes : Tree → List Tree
  | repetition span quantifier operand => repetition span quantifier operand :: operand.nodes
  | group span kind body => group span kind body :: body.nodes
  | alternation span branches => alternation span branches :: allNodes branches
  | concat span items => concat span items :: allNodes items
  | t => [t]

/-- The nodes of some trees. -/
def allNodes : List Tree → List Tree
  | [] => []
  | t :: ts => t.nodes ++ allNodes ts

end

/-- The settings of all nodes of a tree. -/
def settings (t : Tree) : List Setting := t.nodes.filterMap setting?

lemma allNodes_eq (ts : List Tree) : allNodes ts = ts.flatMap nodes := by
  induction ts with
  | nil => rfl
  | cons t ts ih => rw [allNodes, ih, List.flatMap_cons]

variable {span : Span} {t : Tree}

lemma nodes_of_isLeaf (leaf : t.isLeaf = true) : t.nodes = [t] := by
  cases t <;> first | rfl | cases leaf

@[simp]
lemma settings_of_isLeaf (leaf : t.isLeaf = true) : t.settings = [] := by
  rw [settings, nodes_of_isLeaf leaf]
  cases t <;> first | rfl | cases leaf

@[simp]
lemma settings_flags (text : String) : (flags span text).settings = [⟨span.start, text⟩] := rfl

@[simp]
lemma settings_repetition (q : Quantifier) : (repetition span q t).settings = t.settings := rfl

@[simp]
lemma settings_group (kind : GroupKind) :
    (group span kind t).settings = (kind.setting? span.start).toList ++ t.settings := by
  rw [settings, nodes, List.filterMap_cons, setting?]
  cases kind.setting? span.start <;> rfl

/-- The settings of the nodes of some trees. -/
lemma filterMap_allNodes (ts : List Tree) :
    (allNodes ts).filterMap setting? = ts.flatMap settings := by
  rw [allNodes_eq, List.filterMap_flatMap]
  rfl

@[simp]
lemma settings_alternation (ts : List Tree) :
    (alternation span ts).settings = ts.flatMap settings := filterMap_allNodes ts

@[simp]
lemma settings_concat (ts : List Tree) :
    (concat span ts).settings = ts.flatMap settings := filterMap_allNodes ts

/-! ### The flags of the expression -/

mutual

/-- The flags of the expression of a tree are the texts of its settings. -/
theorem join_settings (t : Tree) : String.join (t.settings.map Setting.text) = t.flagText := by
  cases t with
  | flags span text => simp [flagText]
  | repetition span quantifier operand => exact join_settings operand
  | group span kind body =>
    rw [settings_group, List.map_append, String.join_append, join_settings body]
    cases kind with
    | plain flags =>
      rw [GroupKind.setting?, flagText]
      split_ifs with empty
      · rw [String.isEmpty_iff.1 empty]
        rfl
      · simp
    | _ => simp [GroupKind.setting?, flagText]
  | alternation span branches =>
    rw [settings_alternation, join_allSettings branches, flagText]
  | concat span items => rw [settings_concat, join_allSettings items, flagText]
  | _ => rfl

/-- The flags of some trees are the texts of their settings. -/
theorem join_allSettings (ts : List Tree) :
    String.join ((ts.flatMap settings).map Setting.text) = allFlagText ts := by
  cases ts with
  | nil => rfl
  | cons t ts =>
    rw [List.flatMap_cons, List.map_append, String.join_append, join_settings t,
      join_allSettings ts, allFlagText]

end

/-- Every setting of a readable tree has some text. -/
lemma Readable.isEmpty_of_mem_settings (h : t.Readable) :
    ∀ s ∈ t.settings, s.text.isEmpty = false := by
  induction h with
  | leaf leaf => simp [leaf]
  | flags some => simpa using some
  | repetition _ ih => exact ih
  | @group span kind t _ ih =>
    intro s mem
    rw [settings_group, List.mem_append] at mem
    rcases mem with own | mem
    · unfold GroupKind.setting? at own
      grind
    · exact ih s mem
  | alternation _ _ ih =>
    simp only [settings_alternation, List.mem_flatMap]
    rintro s ⟨t, ht, mem⟩
    exact ih t ht s mem
  | concat _ _ ih =>
    simp only [settings_concat, List.mem_flatMap]
    rintro s ⟨t, ht, mem⟩
    exact ih t ht s mem

end Tree

/-! ### What the reader has read -/

namespace Level

variable {k : Level} {t : Tree}

/-- The settings in what has been read of the inside of a group. -/
def settings (k : Level) : List Setting :=
  k.branches.reverse.flatMap Tree.settings ++ k.items.reverse.flatMap Tree.settings

@[simp]
lemma settings_start (p : Position) : (start p).settings = [] := rfl

@[simp]
lemma settings_push : (k.push t).settings = k.settings ++ t.settings := by
  simp [settings, push]

lemma settings_branch (stop : Position) :
    (k.branch stop).settings = k.items.reverse.flatMap Tree.settings := by
  unfold branch
  split
  · rename_i none
    rw [none, Tree.settings_of_isLeaf rfl]
    rfl
  · simp_all
  · simp

@[simp]
lemma settings_nextBranch (stop begun : Position) :
    (k.nextBranch stop begun).settings = k.settings := by
  simp [settings, nextBranch, settings_branch]

@[simp]
lemma settings_body (stop : Position) : (k.body stop).settings = k.settings := by
  unfold body settings
  split
  · simp_all [settings_branch]
  · simp [settings_branch]

end Level

/-- The settings in what has been read around an open group, and its own. -/
def OpenGroup.settings (g : OpenGroup) : List Setting :=
  g.around.settings ++ (g.kind.setting? g.opening.start).toList

namespace Reader

variable {r s : Reader} {x : Char}

/-- The settings in all that has been read. -/
def settings (r : Reader) : List Setting :=
  r.groups.reverse.flatMap OpenGroup.settings ++ r.level.settings

@[simp]
lemma settings_push (t : Tree) (d : Cursor) :
    (r.push t d).settings = r.settings ++ t.settings := by
  simp [settings, push]

lemma settings_push_of_isLeaf {t : Tree} (leaf : t.isLeaf = true) (d : Cursor) :
    (r.push t d).settings = r.settings := by
  rw [settings_push, Tree.settings_of_isLeaf leaf, List.append_nil]

lemma settings_opened (kind : GroupKind) (d : Cursor) :
    (r.opened kind d).settings = r.settings ++ (kind.setting? r.cursor.pos).toList := by
  simp [settings, opened, OpenGroup.settings, Cursor.current, Cursor.spanTo]

lemma settings_closed {g : OpenGroup} {groups : List OpenGroup} (inside : r.groups = g :: groups) :
    (r.closed g groups).settings = r.settings := by
  simp [settings, closed, OpenGroup.settings, inside]

lemma settings_repeated {t : Tree} {items : List Tree} (last : r.level.operand? = some (t, items))
    (q : Quantifier) (d : Cursor) : (r.repeated t items q d).settings = r.settings := by
  simp [settings, repeated, Level.settings, Level.items_of_operand last]

/-- A step adds at most one setting, at the parenthesis under the cursor. -/
lemma settings_of_step (step : r.Step x s) : ∃ new : Option Setting,
    s.settings = r.settings ++ new.toList ∧ ∀ n ∈ new, x = '(' ∧ n.place = r.cursor.pos := by
  have unchanged : s.settings = r.settings → ∃ new : Option Setting,
      s.settings = r.settings ++ new.toList ∧ ∀ n ∈ new, x = '(' ∧ n.place = r.cursor.pos :=
    fun same => ⟨none, by simp [same], by simp⟩
  cases step with
  | @opening kind d _ =>
    refine ⟨_, settings_opened kind d, ?_⟩
    intro n mem
    unfold GroupKind.setting? at mem
    grind
  | @directive flags d _ => exact ⟨some ⟨r.cursor.pos, flags⟩, settings_push _ _, by simp⟩
  | closing inside => exact unchanged (settings_closed inside)
  | bar => exact unchanged (by simp [settings, nextBranch])
  | quantified _ last _ | counted last _ => exact unchanged (settings_repeated last _ _)
  | bracketed read =>
    exact unchanged (settings_push_of_isLeaf (Cursor.readClass_eq_ok read).1 _)
  | escape read => exact unchanged (settings_push_of_isLeaf (Cursor.readEscape_eq_ok read).1 _)
  | dot | anchor _ | literal _ => exact unchanged (settings_push_of_isLeaf rfl _)

end Reader

/-! ### The order of the settings -/

/-- A parenthesis opens at a place of a text. -/
def Position.OpensIn (text : List Char) (place : Position) : Prop :=
  ∃ before after, text = before ++ '(' :: after ∧ place = .behind before

/-- Settings come in the order of a text, each at a parenthesis that opens there. -/
structure Setting.InOrder (text : List Char) (settings : List Setting) : Prop where
  sorted : settings.Pairwise fun s t => s.place.offset < t.place.offset
  opens : ∀ s ∈ settings, s.place.OpensIn text

namespace Reader

variable {text : List Char} {r s : Reader} {x : Char} {t : Tree}

/-- The cursor of a reader stands in a text behind all settings, which come in the order of the
text. -/
structure Ordered (text : List Char) (r : Reader) : Prop where
  within : r.cursor.Within text
  inOrder : Setting.InOrder text r.settings
  before : ∀ n ∈ r.settings, n.place.offset < r.cursor.pos.offset

/-- The cursor stays in the text. -/
lemma within_of_step (hr : r.cursor.Within text) (step : r.Step x s) : s.cursor.Within text := by
  cases step with
  | opening read | directive read => exact (Cursor.within_of_readOpening hr read).setVerbose _
  | closing _ => exact hr.next.setVerbose _
  | bracketed read => exact Cursor.within_of_readClass hr read
  | quantified _ _ read => exact Cursor.within_of_readUncounted hr read
  | counted _ read => exact Cursor.within_of_readCounted hr read
  | escape read => exact Cursor.within_of_readEscape hr read
  | bar | dot | anchor _ | literal _ => exact hr.next

/-- A step adds its setting at the place of the cursor and moves the cursor on. -/
lemma Ordered.step {rest : List Char} (h : r.Ordered text) (under : r.cursor.rest = x :: rest)
    (step : r.Step x s) : s.Ordered text := by
  have within := within_of_step h.within step
  have on : r.cursor.pos.offset < s.cursor.pos.offset :=
    h.within.offset_lt within (length_of_step under (step_eq_ok_iff.2 step))
  obtain ⟨new, settings, place⟩ := settings_of_step step
  refine ⟨within, ⟨?_, ?_⟩, ?_⟩
  · rw [settings, List.pairwise_append]
    refine ⟨h.inOrder.sorted, ?_, ?_⟩
    · cases new <;> simp
    · intro a ha b hb
      rw [(place b (by simpa using hb)).2]
      exact h.before a ha
  · intro n mem
    rw [settings, List.mem_append] at mem
    rcases mem with old | mem
    · exact h.inOrder.opens n old
    · obtain ⟨rfl, at_⟩ := place n (by simpa using mem)
      obtain ⟨passed, eq, pos⟩ := h.within
      exact ⟨passed, rest, by rw [eq, under], at_.trans pos⟩
  · intro n mem
    rw [settings, List.mem_append] at mem
    rcases mem with old | mem
    · exact (h.before n old).trans on
    · rwa [(place n (by simpa using mem)).2]

/-- Passing over space keeps the settings behind the cursor. -/
lemma Ordered.skip (h : r.Ordered text) :
    ({ r with cursor := r.cursor.skip } : Reader).Ordered text := by
  have on := h.within.offset_le h.within.skip (Cursor.length_skip r.cursor)
  exact ⟨h.within.skip, h.inOrder, fun n mem => (h.before n mem).trans_le on⟩

/-- The settings of a tree that is read come in the order of the text. -/
theorem Ordered.run (h : r.Ordered text) (run : r.run = .ok t) :
    Setting.InOrder text t.settings := by
  fun_induction Reader.run r with
  | case1 r c _ =>
    unfold finish at run
    split at run <;> cases run
    rename_i none
    have same : r.settings = r.level.settings := by simp_all [settings]
    rw [Level.settings_body, ← same]
    exact h.inOrder
  | case2 => cases run
  | case3 r c x rest under s step ih => exact ih (h.skip.step under (step_eq_ok_iff.1 step)) run

end Reader

/-- The settings of the tree of a pattern come in the order in which they open in the pattern. -/
theorem Tree.inOrder_of_ofPattern {pattern : String} {t : Tree} (h : ofPattern pattern = .ok t) :
    Setting.InOrder pattern.toList t.settings := by
  refine Reader.Ordered.run ?_ (run_of_ofPattern h)
  exact ⟨Cursor.within_ofString pattern, ⟨.nil, by simp [Reader.ofString, Reader.settings]⟩,
    by simp [Reader.ofString, Reader.settings]⟩

end PatternAutomata
