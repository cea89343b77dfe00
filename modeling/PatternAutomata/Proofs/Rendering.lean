import PatternAutomata.Proofs.Reading

/-!
# Writing expressions as patterns

Every supported expression can be written as a pattern, with a group for every part of more than one
character. Reading the pattern does not give the expression back: groups stand where the expression
has none, and a sequence of one item is read as the item. But what is read compiles in the same way,
so the automaton of the pattern is the automaton of the expression, state by state
(`Automaton.ofPattern_render`).

The proof follows the expression. In front of any characters but a question mark, the pattern of an
expression is read as one item that compiles like the expression (`Expr.readsAs_chars`).
-/

namespace PatternAutomata

namespace Expr

mutual

/-- The characters of the pattern of an expression. -/
def chars : Expr → List Char
  | root _ body => body.chars
  | sequence items => ['(', '?', ':'] ++ allChars items ++ [')']
  | choice left right => ['(', '?', ':'] ++ left.chars ++ ['|'] ++ right.chars ++ [')']
  | repetition quantifier operand =>
    ['(', '?', ':'] ++ operand.chars ++ [')'] ++ quantifier.kind.text.toList ++
      lazyMark quantifier.greedy
  | char _ value => if isSpecial value then ['\\', value] else [value]
  | group capturing body =>
    ['('] ++ (if capturing then [] else ['?', ':']) ++ body.chars ++ [')']
  | charClass text => text.toList
  | assertion text => text.toList
  | backreference text => text.toList

/-- The characters of the patterns of some expressions, one after the other. -/
def allChars : List Expr → List Char
  | [] => []
  | e :: es => e.chars ++ allChars es

end

/-- The pattern of an expression. -/
def render (e : Expr) : String := String.ofList e.chars

/-- A branch compiles like the sequence of its items. -/
lemma compile_ofItems (es : List Expr) : (ofItems es).compile = (sequence es).compile := by
  rcases es with _ | ⟨e, _ | ⟨f, es⟩⟩
  · rfl
  · simp [ofItems, compile, compileAll, Fragment.concatAll]
  · rfl

end Expr

/-- The kind of a quantifier that is not counted is written with one character. -/
lemma QuantifierKind.exists_character {kind : QuantifierKind} (h : kind.isSupported = true) :
    ∃ x, kind.text.toList = [x] ∧ ofCharacter? x = some kind := by
  cases kind with
  | zeroOrMore => exact ⟨'*', rfl, rfl⟩
  | oneOrMore => exact ⟨'+', rfl, rfl⟩
  | zeroOrOne => exact ⟨'?', rfl, rfl⟩
  | range min max => cases h

namespace Expr

open Reader

/-- The pattern of a supported expression does not begin with a question mark. -/
lemma head?_chars (e : Expr) (h : e.isSupported = true) : e.chars.head? ≠ some '?' := by
  cases e with
  | root flags body =>
    rw [isSupported, Bool.and_eq_true] at h
    exact head?_chars body h.2
  | char kind value =>
    rw [chars]
    split_ifs with special
    · nofun
    · rintro ⟨⟩
      exact special rfl
  | charClass text | assertion text | backreference text => cases h
  | _ => nofun

/-- The patterns of supported expressions do not begin with a question mark. -/
lemma head?_allChars (es : List Expr) (h : allSupported es = true) :
    (allChars es).head? ≠ some '?' := by
  induction es with
  | nil => nofun
  | cons e es ih =>
    rw [allSupported, Bool.and_eq_true] at h
    exact head?_append_ne (head?_chars e h.1) (ih h.2)

/-! ### Texts that are read as items -/

/-- In front of any characters but a question mark, the text is read as one item, which compiles as
`m` does. -/
def ReadsAs (text : List Char) (m : Build Fragment) : Prop :=
  ∀ (r : Reader) (rest : List Char), r.cursor.verbose = false → r.cursor.rest = text ++ rest →
    rest.head? ≠ some '?' →
      ∃ t d, r.Reads (r.push t d) rest ∧ t.isPlain = true ∧ t.toExpr.compile = m

/-- Between parentheses the text is read as the inside of a group, which compiles as `m` does. -/
def ReadsInside (text : List Char) (m : Build Fragment) : Prop :=
  ∀ (r : Reader) (rest : List Char), r.cursor.verbose = false →
    r.cursor.rest = text ++ ')' :: rest → r.level.branches = [] → r.level.items = [] →
      ∃ k d, r.Reads ⟨d, k, r.groups, r.names⟩ (')' :: rest) ∧ k.Holds (·.isPlain = true) ∧
        k.items ≠ [] ∧ (ofBranches k.exprs).compile = m

/-- In front of any characters but a question mark, the text is read as items, one for each of the
expressions `es`, which compile as these do. -/
def ReadsItems (text : List Char) (es : List Expr) : Prop :=
  ∀ (r : Reader) (rest : List Char), r.cursor.verbose = false → r.cursor.rest = text ++ rest →
    rest.head? ≠ some '?' →
      ∃ ts d, r.Reads ⟨d, { r.level with items := ts ++ r.level.items }, r.groups, r.names⟩ rest ∧
        (∀ t ∈ ts, t.isPlain = true) ∧ ts.length = es.length ∧
          compileAll (ts.map Tree.toExpr).reverse = compileAll es

variable {text text' : List Char} {m : Build Fragment} {es : List Expr}

/-- An item may be the inside of a group. -/
lemma ReadsAs.inside (item : ReadsAs text m) : ReadsInside text m := by
  intro r rest terse under branches items
  obtain ⟨t, d, reads, plain, compile_eq⟩ := item r _ terse under nofun
  refine ⟨r.level.push t, d, reads, ?_, List.cons_ne_nil _ _, ?_⟩
  · exact Level.holds_push.2 ⟨plain, by simp [branches], by simp [items]⟩
  · rw [Level.exprs_push items, Level.endedExprs, branches]
    exact compile_eq

/-- Two items with a bar between them may be the inside of a group. -/
lemma ReadsAs.inside_choice {left right : Expr} (item : ReadsAs text left.compile)
    (item' : ReadsAs text' right.compile) :
    ReadsInside (text ++ '|' :: text') (choice left right).compile := by
  intro r rest terse under branches items
  rw [List.append_assoc, List.cons_append] at under
  obtain ⟨t, d, reads, plain, compile_eq⟩ := item r _ terse under nofun
  have bar := reads_bar reads.terse reads.rest
  obtain ⟨t', d', reads', plain', compile_eq'⟩ := item' _ _ bar.terse bar.rest nofun
  have holds : (r.level.push t).Holds (·.isPlain = true) :=
    Level.holds_push.2 ⟨plain, by simp [branches], by simp [items]⟩
  refine ⟨_, d', (reads.trans bar).trans reads', ?_, List.cons_ne_nil _ _, ?_⟩
  · have holds' := Level.holds_nextBranch holds (List.cons_ne_nil _ _) d.pos d.next.pos
    exact Level.holds_push.2 ⟨plain', holds'⟩
  · have ended : ((r.push t d).nextBranch).level.endedExprs = [t.toExpr] := by
      refine (Level.endedExprs_nextBranch _ _ holds.items).trans ?_
      rw [Level.exprs_push items, Level.endedExprs, branches]
      rfl
    change (ofBranches (((r.push t d).nextBranch).level.push t').exprs).compile = _
    rw [Level.exprs_push rfl, ended]
    change (choice t.toExpr t'.toExpr).compile = _
    rw [compile, compile, compile_eq, compile_eq']

/-- Items may be the inside of a group, which compiles like their sequence. -/
lemma ReadsItems.inside (all : ReadsItems text es) (some : es ≠ []) :
    ReadsInside text (sequence es).compile := by
  intro r rest terse under branches items
  obtain ⟨ts, d, reads, plain, length, compileAll_eq⟩ := all r _ terse under nofun
  rw [items, List.append_nil] at reads
  refine ⟨_, d, reads, ⟨by simp [branches], plain⟩, ?_, ?_⟩
  · rintro rfl
    exact some (List.length_eq_zero_iff.1 length.symm)
  · simp only [Level.exprs, Level.endedExprs, Level.itemExprs, branches, ofBranches, List.map_nil,
      List.reverse_nil, List.nil_append, List.foldl_nil, compile_ofItems]
    rw [compile, compile, compileAll_eq]

/-- The inside of a group in parentheses is read as an item, whatever stands behind it. -/
lemma ReadsInside.exists_reads {mark : List Char} {captures : Bool} (inside : ReadsInside text m)
    (opens : Opens mark captures none) (bare : text.head? ≠ some '?') {r : Reader}
    {rest : List Char} (terse : r.cursor.verbose = false)
    (under : r.cursor.rest = ['('] ++ mark ++ text ++ [')'] ++ rest) :
    ∃ t d, r.Reads (r.push t d) rest ∧ t.isPlain = true ∧ t.toExpr.compile = m := by
  rw [List.append_assoc, List.append_assoc, List.append_assoc, List.singleton_append,
    List.singleton_append] at under
  obtain ⟨kind, d, opening, flagless, names⟩ :=
    exists_reads_unnamed terse opens under fun _ => head?_append_ne bare nofun
  obtain ⟨k, d', reads, plain, items, compile_eq⟩ := inside _ _ opening.terse opening.rest rfl rfl
  obtain ⟨t, d'', group, plain, expr⟩ :=
    exists_reads_group terse opening flagless reads plain items
  rw [names] at group
  exact ⟨t, d'', group, plain, by rw [expr, compile, compile_eq]⟩

/-- The inside of a group in parentheses is read as an item. -/
lemma ReadsInside.group {mark : List Char} {captures : Bool} (inside : ReadsInside text m)
    (opens : Opens mark captures none) (bare : text.head? ≠ some '?') :
    ReadsAs (['('] ++ mark ++ text ++ [')']) m :=
  fun _ _ terse under _ => inside.exists_reads opens bare terse under

/-- The inside of a group in parentheses with the character of a quantifier behind them is read as
an item. -/
lemma ReadsInside.repetition {e : Expr} {q : Quantifier} (inside : ReadsInside text e.compile)
    (bare : text.head? ≠ some '?') (supported : q.kind.isSupported = true) :
    ReadsAs (['(', '?', ':'] ++ text ++ [')'] ++ q.kind.text.toList ++ lazyMark q.greedy)
      (Expr.repetition q e).compile := by
  intro r rest terse under ends
  obtain ⟨x, written, kind⟩ := q.kind.exists_character supported
  rw [written, List.append_assoc, List.append_assoc, List.singleton_append] at under
  obtain ⟨t, d, reads, plain, compile_eq⟩ := inside.exists_reads .plain bare terse under
  obtain ⟨d', quantified⟩ :=
    exists_reads_quantifier reads.terse kind reads.rest (fun _ => ends) rfl plain
  refine ⟨_, d', reads.trans quantified, ?_, ?_⟩
  · rw [Tree.isPlain, supported, plain, Bool.and_self]
  · rw [Tree.toExpr, compile, compile, compile_eq]

mutual

/-- The pattern of a supported expression is read as one item, which compiles like the
expression. -/
theorem readsAs_chars (e : Expr) (h : e.isSupported = true) : ReadsAs e.chars e.compile := by
  cases e with
  | root flags body =>
    rw [isSupported, Bool.and_eq_true] at h
    rw [chars, compile, if_pos h.1]
    exact readsAs_chars body h.2
  | sequence items =>
    rw [isSupported, Bool.and_eq_true] at h
    have inside := (readsItems_allChars items h.2).inside (by simpa using h.1)
    exact inside.group .plain (head?_allChars items h.2)
  | choice left right =>
    rw [isSupported, Bool.and_eq_true] at h
    have inside := (readsAs_chars left h.1).inside_choice (readsAs_chars right h.2)
    have group := inside.group .plain (head?_append_ne (head?_chars left h.1) nofun)
    simpa [chars] using group
  | repetition quantifier operand =>
    rw [isSupported, Bool.and_eq_true] at h
    exact (readsAs_chars operand h.2).inside.repetition (head?_chars operand h.2) h.1
  | char kind value =>
    rw [isSupported, beq_iff_eq] at h
    subst h
    intro r rest terse under _
    rw [chars] at under
    obtain ⟨t, d, reads, -, plain, expr⟩ := exists_reads_character terse under
    exact ⟨t, d, reads, plain, by rw [expr]⟩
  | group capturing body =>
    rw [isSupported] at h
    have inside := (readsAs_chars body h).inside
    rw [chars, compile]
    cases capturing with
    | true => exact inside.group .numbered (head?_chars body h)
    | false => exact inside.group .plain (head?_chars body h)
  | charClass text | assertion text | backreference text => cases h

/-- The patterns of supported expressions are read as items that compile like them. -/
theorem readsItems_allChars (es : List Expr) (h : allSupported es = true) :
    ReadsItems (allChars es) es := by
  intro r rest terse under ends
  cases es with
  | nil => exact ⟨[], r.cursor, ⟨rfl, under, terse⟩, nofun, rfl, rfl⟩
  | cons e es =>
    rw [allSupported, Bool.and_eq_true] at h
    rw [allChars, List.append_assoc] at under
    obtain ⟨t, d, first, plain, compile_eq⟩ :=
      readsAs_chars e h.1 r _ terse under (head?_append_ne (head?_allChars es h.2) ends)
    obtain ⟨ts, d', others, plain', length, compileAll_eq⟩ :=
      readsItems_allChars es h.2 _ _ first.terse first.rest ends
    refine ⟨ts ++ [t], d', ?_, ?_, ?_, ?_⟩
    · rw [List.append_assoc, List.singleton_append]
      exact first.trans others
    · simpa [or_imp, forall_and] using ⟨plain', plain⟩
    · simp [length]
    · simp [compileAll, compile_eq, compileAll_eq]

end

end Expr

namespace Automaton

/-- The pattern of a supported expression has the automaton of the expression, unless the pattern
nests too deep. -/
theorem ofPattern_render (e : Expr) (supported : e.isSupported = true)
    (within : isWithinNestLimit e.render = true) :
    ∃ nfa, ofPattern e.render = .ok nfa ∧ ofExpr e = .ok nfa := by
  have start : (Reader.ofString e.render).cursor.rest = e.chars ++ [] := by
    rw [List.append_nil]
    exact String.toList_ofList
  obtain ⟨t, d, reads, plain, compile_eq⟩ := e.readsAs_chars supported _ [] rfl start nofun
  have run := reads.run_eq_ok
  have same : ofExpr t.toExpr = ofExpr e := by rw [ofExpr, ofExpr, compile_eq]
  obtain ⟨nfa, made, -⟩ := construct_of_yields (e.compile_yields supported .empty)
  refine ⟨nfa, ?_, made⟩
  rw [ofPattern_of_run run plain within]
  exact same.trans made

/-- An expression with nested repetitions and characters that need a backslash, whose pattern is
`(?:(?:(?:\.|ß))*?(?:(?:(?:(x)\-))+)?)`. -/
def nestedOptions : Expr :=
  .sequence
    [.repetition ⟨.zeroOrMore, false⟩ (.choice (.char .simple '.') (.char .simple 'ß')),
     .repetition ⟨.zeroOrOne, true⟩ (.repetition ⟨.oneOrMore, true⟩
      (.sequence [.group true (.char .simple 'x'), .char .simple '-']))]

theorem ofPattern_render_nestedOptions :
    nestedOptions.isSupported = true ∧ isWithinNestLimit nestedOptions.render = true ∧
      ∃ nfa, ofPattern nestedOptions.render = .ok nfa ∧ ofExpr nestedOptions = .ok nfa := by
  have supported : nestedOptions.isSupported = true := by decide
  have within : isWithinNestLimit nestedOptions.render = true := by decide +kernel
  exact ⟨supported, within, ofPattern_render nestedOptions supported within⟩

end Automaton

end PatternAutomata
