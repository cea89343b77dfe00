import PatternAutomata.Proofs.Determinization
import PatternAutomata.Proofs.Rendering

/-!
# Escaped texts

A text becomes a pattern when a backslash is put before each character that has a special meaning.
Whatever the text is, as long as there is one, the pattern is read as the characters of the text in
their order, and its automaton accepts this text and no other (`Automaton.ofPattern_escaped`). A
concatenation of characters is nested only once, so there is no limit on the length of the text.
-/

namespace PatternAutomata

open scoped Computability

/-- A text as a pattern for itself. -/
def escaped (text : String) : String := String.ofList (text.toList.flatMap spelled)

/-! ### Reading characters -/

/-- Single characters are not nested. -/
lemma Tree.anyTooDeep?_of_isLeaf {ts : List Tree}
    (h : ∀ t ∈ ts, t.isLeaf = true ∧ t.isPlain = true) (room : ℕ) :
    anyTooDeep? room ts = none := by
  induction ts with
  | nil => rfl
  | cons t ts ih =>
    rw [List.forall_mem_cons] at h
    rw [anyTooDeep?, tooDeep?_of_isLeaf h.1.1 h.1.2]
    exact ih h.2

/-- A single branch of single characters is nested at most once. -/
lemma Level.tooDeep?_body {k : Level} (single : k.branches = [])
    (h : ∀ t ∈ k.items, t.isLeaf = true ∧ t.isPlain = true) (stop : Position) (room : ℕ) :
    (k.body stop).tooDeep? (room + 1) = none := by
  have alone : k.body stop = k.branch stop := by rw [body, single]
  rw [alone, branch]
  split
  · rfl
  · rename_i t items
    rw [items, List.forall_mem_singleton] at h
    exact Tree.tooDeep?_of_isLeaf h.1 h.2 _
  · exact Tree.anyTooDeep?_of_isLeaf (fun t mem => h t (List.mem_reverse.1 mem)) room

/-- Characters are read as themselves, one after the other. -/
lemma Reader.exists_reads_characters (text : List Char) {r : Reader} {rest : List Char}
    (terse : r.cursor.verbose = false) (under : r.cursor.rest = text.flatMap spelled ++ rest) :
    ∃ ts d, r.Reads ⟨d, { r.level with items := ts ++ r.level.items }, r.groups, r.names⟩ rest ∧
      (∀ t ∈ ts, t.isLeaf = true ∧ t.isPlain = true) ∧
        (ts.map Tree.toExpr).reverse = text.map (.char .simple) := by
  induction text generalizing r with
  | nil => exact ⟨[], r.cursor, ⟨rfl, under, terse⟩, List.forall_mem_nil _, rfl⟩
  | cons x text ih =>
    rw [List.flatMap_cons, List.append_assoc] at under
    obtain ⟨t, d, first, leaf, plain, expr⟩ := exists_reads_character terse under
    obtain ⟨ts, d', others, leaves, exprs⟩ := ih first.terse first.rest
    refine ⟨ts ++ [t], d', ?_, ?_, ?_⟩
    · rw [List.append_assoc, List.singleton_append]
      exact first.trans others
    · rw [List.forall_mem_append, List.forall_mem_singleton]
      exact ⟨leaves, leaf, plain⟩
    · rw [List.map_append, List.reverse_append, exprs, List.map_singleton, expr]
      rfl

/-! ### Sequences of characters -/

namespace Expr

/-- A sequence of characters is supported when there are any. -/
lemma allSupported_characters (text : List Char) :
    allSupported (text.map (.char .simple)) = true := by
  induction text with
  | nil => rfl
  | cons x text ih => exact ih

/-- Characters in a row lead through the one word that they make up. -/
lemma prod_through_characters (text : List Char) :
    ((allCrossings (text.map (.char .simple))).map Crossings.through).prod = {text} := by
  induction text with
  | nil => rfl
  | cons x text ih =>
    have first : (char .simple x).crossings.through = {[x]} := rfl
    rw [List.map_cons, allCrossings, List.map_cons, List.prod_cons, first, ih]
    exact Set.image2_singleton

end Expr

namespace Automaton

variable {nfa : Automaton} {text : String}

/-- The pattern of a text has the automaton of the sequence of its characters. -/
lemma ofPattern_escaped_eq (some : text ≠ "") :
    ofPattern (escaped text) = ofExpr (.sequence (text.toList.map (.char .simple))) := by
  have start :
      (Reader.ofString (escaped text)).cursor.rest = text.toList.flatMap spelled ++ [] := by
    rw [List.append_nil]
    exact String.toList_ofList
  obtain ⟨ts, d, reads, leaves, exprs⟩ := Reader.exists_reads_characters _ rfl start
  let k : Level := { (Reader.ofString (escaped text)).level with items := ts ++ [] }
  have run : (Reader.ofString (escaped text)).run = .ok (k.body d.pos) := reads.run_eq_ok
  have items : k.items = ts := List.append_nil ts
  have holds : k.Holds (·.isPlain = true) := ⟨nofun, fun t mem => (leaves t (items ▸ mem)).2⟩
  have nonempty : k.items ≠ [] := by
    rintro none
    rw [← items, none] at exprs
    exact some (String.toList_eq_nil_iff.1 (List.map_eq_nil_iff.1 exprs.symm))
  have within : isWithinNestLimit (escaped text) = true := by
    rw [isWithinNestLimit, run]
    exact Option.isNone_iff_eq_none.2
      (k.tooDeep?_body rfl (fun t mem => leaves t (items ▸ mem)) d.pos _)
  have expr : (k.body d.pos).toExpr = .ofItems (text.toList.map (.char .simple)) := by
    rw [k.toExpr_body d.pos holds, Level.exprs, Level.itemExprs, items, exprs]
    rfl
  rw [ofPattern_of_run run ((k.isPlain_body d.pos holds).2 nonempty) within, expr, ofExpr, ofExpr,
    Expr.compile_ofItems]

/-- The pattern of a text that is not empty has an automaton. It accepts this text and no other, and
so does its deterministic automaton. -/
theorem ofPattern_escaped (text : String) (some : text ≠ "") :
    ∃ nfa, ofPattern (escaped text) = .ok nfa ∧ ∀ x, (nfa.accepts x = true ↔ x = text) ∧
      (nfa.determinize.accepts x = true ↔ x = text) := by
  obtain ⟨c, cs, chars⟩ := List.exists_cons_of_ne_nil (mt String.toList_eq_nil_iff.1 some)
  have supported : (Expr.sequence (text.toList.map (.char .simple))).isSupported = true := by
    rw [Expr.isSupported, Expr.allSupported_characters, chars]
    rfl
  obtain ⟨nfa, made⟩ := exists_ofExpr ((Expr.offences_eq_nil_iff _).2 supported)
  have through : (Expr.sequence (text.toList.map (.char .simple))).crossings.through =
      {text.toList} := by
    rw [← Expr.prod_through_characters, chars]
    exact Crossings.sequence_through _ _
  have accepts : ∀ x, nfa.accepts x = true ↔ x = text := by
    intro x
    rw [accepts_iff_of_ofExpr made, through]
    exact String.toList_inj
  have built := Built.of_build (run_compile_of_ofExpr made).2
  refine ⟨nfa, (ofPattern_escaped_eq some).trans made, fun x => ⟨accepts x, ?_⟩⟩
  rw [built.accepts_determinize_iff, ← built.accepts_iff]
  exact accepts x

theorem ofPattern_escaped_mixed : "a.\n\\ε🎉 $" ≠ "" ∧
    ∃ nfa, ofPattern (escaped "a.\n\\ε🎉 $") = .ok nfa ∧
      ∀ x, (nfa.accepts x = true ↔ x = "a.\n\\ε🎉 $") ∧
        (nfa.determinize.accepts x = true ↔ x = "a.\n\\ε🎉 $") :=
  have some : "a.\n\\ε🎉 $" ≠ "" := by decide
  ⟨some, ofPattern_escaped _ some⟩

end Automaton

end PatternAutomata
