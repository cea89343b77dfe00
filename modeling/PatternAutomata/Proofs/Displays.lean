import PatternAutomata.Dfa.Determinize
import PatternAutomata.Proofs.Compiled
import PatternAutomata.Proofs.Delimiting
import PatternAutomata.Proofs.EdgeOrder
import PatternAutomata.Proofs.Numbering

/-!
# Shown tables are unambiguous

A shown table has one line for each row: a mark, the number of the row, and behind a colon the
characters with what they lead to. Characters are shown as they are, so a blank, a digit, a part of
an arrow or the end of a line may stand where a separator could stand. They are told from separators
by their places: one character, whatever it is, comes behind the blank that begins an entry, a
number ends before what is no digit, and the entries of a line end where no blank follows. In a
numbered table the closure begins with a blank as well, but behind its sign there is a star where an
entry has a blank (`NumberedTable.delimits_edges`), so the character `ε` is not taken for it.

The lines of both kinds of tables have one form (`writeTable`), and such a text tells the rows and
which of them accept as soon as what a line holds is told from the end of the line
(`Delimits.writeTable_eq_iff`). The rows of a deterministic automaton tell what every state and
character find in its table (`DfaTable.rows_eq_iff`). In the table of an automaton there is nothing
else to tell: the accepting numbers are those of rows, in ascending order, and the alphabet is that
of the rows (`Automaton.table_eq_iff_rows`).
-/

namespace PatternAutomata

/-- The text of a label tells the label. -/
lemma Label.text_injective : Function.Injective Label.text := by
  intro label label' same
  have chars := congrArg String.toList same
  simp only [Label.text, String.toList_intercalate, List.map_map, Function.comp_def] at chars
  exact (delimits_numbers []).injective ⟨nofun, nofun⟩ chars

/-! ### Tables -/

section Tables

variable {α : Type}

/-- A line of a table: a star or a blank, a number, and something behind a colon. -/
def writeLine (write : α → List Char) (line : Bool × StateNumber × α) : List Char :=
  (if line.1 then '*' else ' ') ::
    ((toString line.2.1).toList ++ ':' :: (write line.2.2 ++ ['\n']))

/-- A table, line by line. -/
def writeTable (write : α → List Char) (accepts : StateNumber → Bool)
    (rows : List (StateNumber × α)) : List Char :=
  (rows.map fun row => (accepts row.1, row)).flatMap (writeLine write)

variable {write : α → List Char}

/-- A line is told from what follows when what it holds is told from the end of the line. -/
lemma Delimits.line (inside : Delimits (·.head? = some '\n') write) :
    Delimits (fun _ => True) (writeLine write) := by
  rintro ⟨x, n, a⟩ ⟨y, m, b⟩ rest rest' - - same
  simp only [writeLine, List.cons_append, List.append_assoc, List.cons.injEq] at same
  obtain ⟨mark, number⟩ := same
  have marks : x = y := by
    cases x <;> cases y <;> simp_all
  have colon : ∀ more, NoDigitFirst (':' :: more) := fun _ => noDigitFirst_cons (by decide)
  obtain ⟨rfl, behind⟩ := delimits_number (colon _) (colon _) number
  obtain ⟨rfl, ends⟩ := inside rfl rfl (List.cons.inj behind).2
  exact ⟨by rw [marks], by simpa using ends⟩

/-- A table tells its rows and which of them accept. -/
lemma Delimits.writeTable_eq_iff (inside : Delimits (·.head? = some '\n') write)
    {accepts accepts' : StateNumber → Bool} {rows rows' : List (StateNumber × α)} :
    writeTable write accepts rows = writeTable write accepts' rows' ↔
      rows = rows' ∧ ∀ row ∈ rows, accepts row.1 = accepts' row.1 := by
  -- behind the last line there is nothing
  have lines : Delimits (· = []) fun lines : List (Bool × StateNumber × α) =>
      lines.flatMap (writeLine write) :=
    inside.line.flatMap (fun _ _ => trivial) (fun _ _ => trivial) fun _ _ => List.cons_ne_nil _ _
  rw [writeTable, writeTable, (lines.injective rfl).eq_iff]
  constructor
  · intro same
    obtain rfl : rows = rows' := by
      simpa [Function.comp_def] using congrArg (List.map Prod.snd) same
    rw [List.map_inj_left] at same
    exact ⟨rfl, fun row mem => (Prod.mk.inj (same row mem)).1⟩
  · rintro ⟨rfl, same⟩
    exact List.map_congr_left fun row mem => by rw [same row mem]

/-- The characters before what a line holds. -/
lemma toList_lineHead (accepts : Bool) (number : String) :
    ((if accepts then "*" else " ") ++ number ++ ":").toList =
      (if accepts then '*' else ' ') :: (number.toList ++ [':']) := by
  cases accepts <;> simp

/-- The characters of a character that leads to something. -/
lemma toList_arrow (c : Char) (s : String) :
    (" " ++ c.toString ++ " -> " ++ s).toList =
      ' ' :: c :: ' ' :: '-' :: '>' :: ' ' :: s.toList := by
  simp

end Tables

/-! ### Deterministic automata -/

namespace Dfa

/-- A character with its target. -/
def writeMove (move : Char × StateNumber) : List Char :=
  ' ' :: move.1 :: ' ' :: '-' :: '>' :: ' ' :: (toString move.2).toList

/-- What stands in a row behind its number. -/
def writeMoves (moves : List (Char × StateNumber)) : List Char := moves.flatMap writeMove

/-- A target is told from a text if no digit follows it. -/
lemma delimits_writeMove : Delimits NoDigitFirst writeMove := by
  rintro ⟨c, n⟩ ⟨d, m⟩ rest rest' h h' same
  simp only [writeMove, List.cons_append, List.cons.injEq, true_and] at same
  obtain ⟨rfl, number⟩ := same
  obtain ⟨rfl, rfl⟩ := delimits_number h h' number
  exact ⟨rfl, rfl⟩

/-- The targets of a row are told from the end of the line. -/
lemma delimits_writeMoves : Delimits (·.head? = some '\n') writeMoves := by
  refine delimits_writeMove.flatMap (fun rest h x first => ?_)
    (fun _ _ => noDigitFirst_cons (by decide)) nofun
  obtain rfl := Option.some.inj (h.symm.trans first)
  decide

lemma toList_moves (moves : List (Char × StateNumber)) :
    (String.join (moves.map fun move =>
      " " ++ move.1.toString ++ " -> " ++ toString move.2)).toList = writeMoves moves := by
  simp only [String.toList_join, List.flatMap_map, toList_arrow]
  rfl

lemma toList_showRow (d : Dfa) (row : StateNumber × List (Char × StateNumber)) :
    (d.showRow row).toList = writeLine writeMoves (d.accepting.contains row.1, row) := by
  simp only [showRow]
  rw [String.toList_append, String.toList_append, toList_lineHead, toList_moves]
  simp [writeLine]

lemma toList_text (d : Dfa) :
    d.text.toList = writeTable writeMoves d.accepting.contains d.table.rows := by
  simp only [text, String.toList_join, List.flatMap_map, toList_showRow, writeTable]

/-- The text of an automaton tells its rows and which of them accept. -/
lemma text_eq_iff_rows {d e : Dfa} : d.text = e.text ↔ d.table.rows = e.table.rows ∧
    ∀ row ∈ d.table.rows, row.1 ∈ d.accepting ↔ row.1 ∈ e.accepting := by
  rw [← String.toList_inj, toList_text, toList_text, delimits_writeMoves.writeTable_eq_iff]
  refine and_congr_right fun _ => forall₂_congr fun row _ => ?_
  rw [Bool.eq_iff_iff, Std.TreeSet.contains_iff_mem, Std.TreeSet.contains_iff_mem]

/-- The text of an automaton tells the numbers of its table, what each of them finds for each
character, and which of them accept. -/
lemma text_eq_iff {d e : Dfa} : d.text = e.text ↔ (∀ n, n ∈ d.table ↔ n ∈ e.table) ∧
    (∀ n c, d.table.target? n c = e.table.target? n c) ∧
    ∀ n ∈ d.table, n ∈ d.accepting ↔ n ∈ e.accepting := by
  rw [text_eq_iff_rows, DfaTable.rows_eq_iff, and_assoc]
  refine and_congr_right fun _ => and_congr_right fun _ => ?_
  simp only [DfaTable.mem_iff_exists_mem_rows, Prod.forall, forall_exists_index]

end Dfa

/-! ### Numbered tables -/

namespace NumberedTable

lemma toList_showNumbers (ns : List StateNumber) : (showNumbers ns).toList =
    '[' :: (", ".toList.intercalate (ns.map fun n => (toString n).toList) ++ [']']) := by
  simp only [showNumbers, String.toList_append, String.toList_intercalate, List.map_map,
    Function.comp_def]
  rfl

/-- Numbers in brackets are told from a text, whatever follows them. -/
lemma delimits_showNumbers : Delimits (fun _ => True) fun ns => (showNumbers ns).toList := by
  rintro ns ms rest rest' - - same
  simp only [toList_showNumbers, List.cons_append, List.append_assoc, List.cons.injEq,
    true_and] at same
  have bracket : ∀ more, NoDigitFirst (']' :: more) ∧ (']' :: more).head? ≠ some ',' :=
    fun more => ⟨noDigitFirst_cons (by decide), by simp⟩
  obtain ⟨rfl, behind⟩ := delimits_numbers [' '] (bracket _) (bracket _) same
  exact ⟨rfl, by simpa using behind⟩

/-- A character with its targets. -/
def writeEdge (edge : Char × List StateNumber) : List Char :=
  ' ' :: edge.1 :: ' ' :: '-' :: '>' :: ' ' :: ((showNumbers edge.2).toList ++ [','])

/-- What stands in a row behind its number. -/
def writeRow (row : NumberedRow) : List Char :=
  row.edges.flatMap writeEdge ++ (" ε* -> ".toList ++ (showNumbers row.closure).toList)

lemma delimits_writeEdge : Delimits (fun _ => True) writeEdge := by
  rintro ⟨c, ns⟩ ⟨d, ms⟩ rest rest' - - same
  simp only [writeEdge, List.cons_append, List.append_assoc, List.cons.injEq, true_and] at same
  obtain ⟨rfl, numbers⟩ := same
  obtain ⟨rfl, behind⟩ := delimits_showNumbers trivial trivial numbers
  exact ⟨rfl, by simpa using behind⟩

/-- The edges of a row are told from the closure: behind the character of an edge there is a blank,
and behind the sign for the closure there is none. -/
lemma delimits_edges : Delimits (" ε*".toList <+: ·) fun edges : List (Char × List StateNumber) =>
    edges.flatMap writeEdge := by
  refine delimits_writeEdge.flatMap (fun _ _ => trivial) (fun _ _ => trivial) ?_
  rintro ⟨c, ns⟩ rest closure
  simp [writeEdge] at closure

lemma delimits_writeRow : Delimits (·.head? = some '\n') writeRow := by
  rintro ⟨edges, closure⟩ ⟨edges', closure'⟩ rest rest' - - same
  simp only [writeRow, List.append_assoc] at same
  have sign : ∀ more, " ε*".toList <+: " ε* -> ".toList ++ more := fun more => ⟨_, rfl⟩
  obtain ⟨rfl, behind⟩ := delimits_edges (sign _) (sign _) same
  rw [List.append_cancel_left_eq] at behind
  obtain ⟨rfl, rfl⟩ := delimits_showNumbers trivial trivial behind
  exact ⟨rfl, rfl⟩

lemma toList_edges (edges : List (Char × List StateNumber)) :
    (String.join (edges.map fun edge =>
      " " ++ edge.1.toString ++ " -> " ++ showNumbers edge.2 ++ ",")).toList =
        edges.flatMap writeEdge := by
  rw [String.toList_join, List.flatMap_map]
  refine List.flatMap_congr fun edge _ => ?_
  rw [String.toList_append, toList_arrow]
  rfl

lemma toList_showRow (t : NumberedTable) (entry : StateNumber × NumberedRow) :
    (t.showRow entry).toList = writeLine writeRow (t.accepting.contains entry.1, entry) := by
  simp only [showRow]
  rw [String.toList_append, String.toList_append, String.toList_append, String.toList_append,
    toList_lineHead, toList_edges]
  simp [writeLine, writeRow]

lemma toList_text (t : NumberedTable) :
    t.text.toList = writeTable writeRow t.accepting.contains t.numbered := by
  simp only [text, String.toList_join, List.flatMap_map, toList_showRow, writeTable]

lemma map_snd_numbered (t : NumberedTable) : t.numbered.map Prod.snd = t.rows.toList := by
  simp [numbered, Function.comp_def]

lemma numbered_inj {t u : NumberedTable} : t.numbered = u.numbered ↔ t.rows = u.rows := by
  constructor
  · intro same
    rw [← Array.toList_inj, ← map_snd_numbered, same, map_snd_numbered]
  · intro same
    rw [numbered, numbered, same]

lemma mem_numbered_iff {t : NumberedTable} {n : StateNumber} {row : NumberedRow} :
    (n, row) ∈ t.numbered ↔ t.row? n = some row := by
  have place : (n, row) ∈ t.numbered ↔ (row, n) ∈ t.rows.toList.zipIdx 1 := by
    simp [numbered]
  rw [place, List.mk_mem_zipIdx_iff_le_and_getElem?_sub]
  cases n <;> simp [row?]

/-- The text of a table tells its rows and which of them accept. -/
lemma text_eq_iff {t u : NumberedTable} : t.text = u.text ↔ t.rows = u.rows ∧
    ∀ entry ∈ t.numbered, entry.1 ∈ t.accepting ↔ entry.1 ∈ u.accepting := by
  rw [← String.toList_inj, toList_text, toList_text, delimits_writeRow.writeTable_eq_iff,
    numbered_inj]
  refine and_congr_right fun _ => forall₂_congr fun row _ => ?_
  rw [Bool.eq_iff_iff, List.contains_iff_mem, List.contains_iff_mem]

/-- A table agrees with itself when no row has two groups of targets for one character. -/
lemma agrees_self {t : NumberedTable}
    (distinct : ∀ row ∈ t.rows, (row.edges.map Prod.fst).Nodup) : t.agrees t = true := by
  have rows : ∀ row ∈ t.rows.toList, Unordered.sameMap (· == ·) row.edges row.edges = true := by
    intro row mem
    refine (Unordered.sameMap_iff (distinct row (Array.mem_toList_iff.1 mem))).2 ⟨rfl, ?_⟩
    exact fun c ns mem => ⟨ns, mem, beq_self_eq_true ns⟩
  simp only [agrees, List.zip_eq_zipWith, List.zipWith_self]
  simp [rows, Unordered.sameSet]

end NumberedTable

/-! ### Tables of automata -/

/-- When labels are used once, so are the characters of the edges. -/
lemma State.LabelsDistinct.nodup_charEdges {s : State} (distinct : s.LabelsDistinct) :
    (s.charEdges.map Prod.fst).Nodup := by
  rw [LabelsDistinct, List.Nodup, List.pairwise_map] at distinct
  rw [List.Nodup, List.pairwise_map, charEdges, List.pairwise_filterMap]
  refine distinct.imp ?_
  rintro ⟨_ | c, ids⟩ ⟨_ | d, ids'⟩ other edge h edge' h' <;> cases h <;> cases h'
  rintro rfl
  exact other rfl

namespace Automaton

variable {nfa : Automaton}

/-- The alphabet lists the characters of the rows, each where it comes first. -/
lemma alphabet_table (nfa : Automaton) :
    nfa.table.alphabet = distinct (nfa.table.rows.toList.flatMap fun row =>
      row.edges.map Prod.fst) := by
  simp [table, alphabet, List.flatMap_map, Function.comp_def]

/-- The accepting numbers ascend. -/
lemma pairwise_accepting (nfa : Automaton) : nfa.table.accepting.Pairwise (· < ·) := by
  have ascending : nfa.order.Pairwise fun s t =>
      ∀ n, nfa.number? s = some n → ∀ m, nfa.number? t = some m → n < m := by
    rw [List.pairwise_iff_getElem]
    intro i j hi hj before n hn m hm
    have number : ∀ k (hk : k < nfa.order.length), nfa.number? nfa.order[k] = some (k + 1) :=
      fun k hk => number?_eq_some_iff.2 ⟨k, rfl, List.getElem?_eq_getElem hk⟩
    obtain rfl := Option.some.inj ((number i hi).symm.trans hn)
    obtain rfl := Option.some.inj ((number j hj).symm.trans hm)
    exact Nat.succ_lt_succ before
  exact List.pairwise_filterMap.2 (ascending.filter _)

/-- Accepting numbers are those of rows. -/
lemma exists_mem_numbered {n : StateNumber} (accepting : n ∈ nfa.table.accepting) :
    ∃ row, (n, row) ∈ nfa.table.numbered := by
  obtain ⟨id, number, -⟩ := mem_accepting_iff.1 accepting
  exact ⟨_, NumberedTable.mem_numbered_iff.2 (row?_of_number number)⟩

variable {a b : Automaton}

/-- Accepting numbers are listed alike when they are the same. -/
lemma accepting_table_eq (same : ∀ n, n ∈ a.table.accepting ↔ n ∈ b.table.accepting) :
    a.table.accepting = b.table.accepting := by
  have ha := a.pairwise_accepting
  have hb := b.pairwise_accepting
  have perm := (List.perm_ext_iff_of_nodup ha.nodup hb.nodup).2 same
  exact perm.eq_of_pairwise (fun _ _ _ _ below above => absurd above below.not_gt) ha hb

/-- The table of an automaton is known when its rows are and which of them accept. -/
lemma table_eq_iff_rows : a.table = b.table ↔ a.table.rows = b.table.rows ∧
    ∀ entry ∈ a.table.numbered, entry.1 ∈ a.table.accepting ↔ entry.1 ∈ b.table.accepting := by
  refine ⟨fun same => by simp [same], fun ⟨rows, marks⟩ => ?_⟩
  have numbered := NumberedTable.numbered_inj.2 rows
  have accepting : a.table.accepting = b.table.accepting := by
    refine accepting_table_eq fun n => ⟨fun mem => ?_, fun mem => ?_⟩
    · obtain ⟨row, entry⟩ := exists_mem_numbered mem
      exact (marks (n, row) entry).1 mem
    · obtain ⟨row, entry⟩ := exists_mem_numbered mem
      exact (marks (n, row) (numbered ▸ entry)).2 mem
  have alphabet : a.table.alphabet = b.table.alphabet := by
    rw [alphabet_table, alphabet_table, rows]
  change NumberedTable.mk a.table.rows a.table.accepting a.table.alphabet = b.table
  rw [rows, accepting, alphabet]

/-- The text of the table of an automaton tells the table. -/
lemma text_table_eq_iff : a.table.text = b.table.text ↔ a.table = b.table :=
  NumberedTable.text_eq_iff.trans table_eq_iff_rows.symm

/-- An automaton that is built of what a script or an expression makes. -/
inductive Constructed : Automaton → Prop
  | ofScript {s : Script} {made : Array Fragment} {a : Arena} {f : Fragment} {nfa : Automaton} :
      (Script.run #[] s).run .empty = .ok (made, a) → build f a = .ok nfa → Constructed nfa
  | ofExpr {e : Expr} {nfa : Automaton} : Automaton.ofExpr e = .ok nfa → Constructed nfa

lemma Constructed.labelsDistinct (made : nfa.Constructed) : nfa.arena.LabelsDistinct := by
  cases made with
  | ofScript run h =>
    obtain ⟨rfl, -, -⟩ := build_eq_ok_iff.1 h
    exact Arena.invariant_labelsDistinct.of_run run
  | ofExpr h =>
    exact Expr.compile_keeps Arena.invariant_labelsDistinct _ (run_compile_of_ofExpr h).1
      Arena.invariant_labelsDistinct.empty

lemma Constructed.agrees_self (made : nfa.Constructed) : nfa.table.agrees nfa.table = true := by
  refine NumberedTable.agrees_self fun row mem => ?_
  obtain ⟨id, -, rfl⟩ := List.mem_map.1 (List.mem_toArray.1 mem)
  rw [List.map_map]
  exact (made.labelsDistinct id).nodup_charEdges

end Automaton

/-! ### What texts tell -/

/-- Texts are unambiguous, whatever characters they show. The text of a deterministic automaton
tells which numbers have a row in its table, what each of them finds for each character, and which
of them accept, so tables with one text list the same rows. The text of the table of an automaton
tells the table, and the text of a label tells the label. -/
theorem displays_unambiguous :
    (∀ d e : Dfa, (d.text = e.text ↔ (∀ n, n ∈ d.table ↔ n ∈ e.table) ∧
        (∀ n c, d.table.target? n c = e.table.target? n c) ∧
        ∀ n ∈ d.table, n ∈ d.accepting ↔ n ∈ e.accepting) ∧
      (d.text = e.text → d.table.rows = e.table.rows)) ∧
    (∀ a b : Automaton, a.table.text = b.table.text ↔ a.table = b.table) ∧
    (∀ a b : Automaton, a.Constructed → b.Constructed → a.table.text = b.table.text →
      a.table.agrees b.table = true) ∧
    ∀ label label' : Label, label.text = label'.text ↔ label = label' := by
  refine ⟨fun d e => ⟨Dfa.text_eq_iff, fun same => (Dfa.text_eq_iff_rows.1 same).1⟩,
    fun a b => Automaton.text_table_eq_iff, fun a b made _ same => ?_,
    fun label label' => Label.text_injective.eq_iff⟩
  rw [← Automaton.text_table_eq_iff.1 same]
  exact made.agrees_self

/-- An arena in which a fragment that is not used stands in front of one for a character. -/
def unusedFrontArena : Arena :=
  ⟨#[⟨[(.char 'x', [1])], false⟩, ⟨[], true⟩, ⟨[(.char 'ε', [3])], false⟩, ⟨[], true⟩]⟩

theorem displays_unambiguous_unusedFront :
    (∃ a b : Automaton, a.Constructed ∧ b.Constructed ∧ a.arena ≠ b.arena ∧
      a.table.text = " 1: ε -> [2], ε* -> [1]\n*2: ε* -> [2]\n" ∧ a.table.text = b.table.text ∧
      a.table.agrees b.table = true) ∧
    ∃ d e : Dfa, d.accepting.toList ≠ e.accepting.toList ∧
      d.text = "*1: \n -> 2   -> 1\n" ∧ d.text = e.text ∧ d.table.rows = e.table.rows ∧
      (∀ n, n ∈ d.table ↔ n ∈ e.table) ∧ (∀ n c, d.table.target? n c = e.table.target? n c) ∧
      ∀ n ∈ d.table, n ∈ d.accepting ↔ n ∈ e.accepting := by
  obtain ⟨automata, -, tables, -⟩ := displays_unambiguous
  refine ⟨⟨⟨unusedFrontArena, 2, 3⟩, ⟨⟨#[⟨[(.char 'ε', [1])], false⟩, ⟨[], true⟩]⟩, 0, 1⟩, ?_⟩,
    .ofParts (.ofRows [(1, [(' ', 1), ('\n', 2)])]) {1, 2},
    .ofParts (.ofRows [(1, [('\n', 2), (' ', 1)])]) {1}, by decide +kernel, by decide +kernel, ?_⟩
  · have run : (Script.run #[] [.char 'x', .char 'ε']).run .empty =
        .ok (#[⟨0, 1⟩, ⟨2, 3⟩], unusedFrontArena) := rfl
    have front : Automaton.Constructed ⟨unusedFrontArena, 2, 3⟩ :=
      .ofScript (f := ⟨2, 3⟩) run (by decide +kernel)
    have alone : Automaton.Constructed
        ⟨⟨#[⟨[(.char 'ε', [1])], false⟩, ⟨[], true⟩]⟩, 0, 1⟩ :=
      .ofExpr (e := .char .simple 'ε') (by decide +kernel)
    have same : (Automaton.table ⟨unusedFrontArena, 2, 3⟩).text = (Automaton.table
        ⟨⟨#[⟨[(.char 'ε', [1])], false⟩, ⟨[], true⟩]⟩, 0, 1⟩).text := by decide +kernel
    exact ⟨front, alone, by decide, by decide +kernel, same, tables _ _ front alone same⟩
  · have same : (Dfa.ofParts (.ofRows [(1, [(' ', 1), ('\n', 2)])]) {1, 2}).text =
        (Dfa.ofParts (.ofRows [(1, [('\n', 2), (' ', 1)])]) {1}).text := by decide +kernel
    obtain ⟨lookups, rows⟩ := automata _ _
    exact ⟨same, rows same, lookups.1 same⟩

end PatternAutomata
