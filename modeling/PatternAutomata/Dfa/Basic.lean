import Std.Data.TreeMap
import Std.Data.TreeSet
import PatternAutomata.Automaton.Table

/-!
# Deterministic automata

A deterministic automaton has at most one target for each state and character. Its states are
numbered and the start is always number 1, whether it has a row or not. An automaton that was made
by determinization remembers which sets of states its own states stand for, until its table is
replaced.
-/

namespace PatternAutomata

/-- The label of a state that stands for several states: their numbers, in the order in which they
were gathered. -/
abbrev Label := List StateNumber

/-- A label as it is shown. -/
def Label.text (label : Label) : String := String.intercalate "," (label.map toString)

/-- The states that determinization found, before they are numbered. -/
structure Subsets where
  /-- The target of each character from each label, in the order of discovery. -/
  rows : List (Label × List (Char × Label))
  /-- The accepting labels, in the order of discovery. -/
  accepting : List Label
deriving DecidableEq, Repr

namespace Subsets

/-- Whether two tables of labels agree when the order of rows and characters does not count. -/
def sameRows (s t : Subsets) : Bool :=
  Unordered.sameMap (Unordered.sameMap (· == ·)) s.rows t.rows

/-- Whether the same labels accept. -/
def sameAccepting (s t : Subsets) : Bool := Unordered.sameSet s.accepting t.accepting

end Subsets

/-- The table of a deterministic automaton. -/
abbrev DfaTable := Std.TreeMap StateNumber (Std.TreeMap Char StateNumber)

/-- A deterministic finite automaton. -/
structure Dfa where
  /-- The characters of the automaton, whether the table has them or not. -/
  alphabet : List Char
  table : DfaTable
  accepting : Std.TreeSet StateNumber
  /-- The labels of the states, if the table is the one that determinization made. -/
  subsets : Option Subsets

namespace DfaTable

/-- The table of some rows; of rows with one number, or targets of one character, the last one
counts. -/
def ofRows (rows : List (StateNumber × List (Char × StateNumber))) : DfaTable :=
  Std.TreeMap.ofList (rows.map fun row => (row.1, Std.TreeMap.ofList row.2))

/-- The rows of a table with their numbers, both rows and characters ascending. -/
def rows (t : DfaTable) : List (StateNumber × List (Char × StateNumber)) :=
  t.toList.map fun row => (row.1, row.2.toList)

/-- The target of a character from a state. -/
def target? (t : DfaTable) (n : StateNumber) (c : Char) : Option StateNumber :=
  match t[n]? with
  | none => none
  | some row => row[c]?

variable {t u : DfaTable} {n m : StateNumber} {c : Char}

/-- The targets of a state are those in its row. -/
theorem target?_eq_some_iff :
    t.target? n c = some m ↔ ∃ row, t[n]? = some row ∧ row[c]? = some m := by
  unfold target?
  cases t[n]? <;> simp

/-- The rows are the listing of the table in which each row has been listed. -/
theorem rows_eq_toList_map (t : DfaTable) : t.rows = (t.map fun _ row => row.toList).toList := by
  rw [rows, Std.TreeMap.toList_map]

/-- A row is listed under the number that finds it. -/
theorem mem_rows_iff {row : List (Char × StateNumber)} :
    (n, row) ∈ t.rows ↔ ∃ found, t[n]? = some found ∧ found.toList = row := by
  rw [rows_eq_toList_map, Std.TreeMap.mem_toList_iff_getElem?_eq_some, Std.TreeMap.getElem?_map,
    Option.map_eq_some_iff]

/-- The numbers of a table are those of the listed rows. -/
theorem mem_iff_exists_mem_rows : n ∈ t ↔ ∃ row, (n, row) ∈ t.rows := by
  simp only [mem_rows_iff, Std.TreeMap.mem_iff_isSome_getElem?, Option.isSome_iff_exists]
  exact ⟨fun ⟨found, h⟩ => ⟨_, found, h, rfl⟩, fun ⟨_, found, h, _⟩ => ⟨found, h⟩⟩

/-- The target of a character from a state stands in the listed row of the state. -/
theorem target?_eq_some_iff_mem_rows :
    t.target? n c = some m ↔ ∃ row, (n, row) ∈ t.rows ∧ (c, m) ∈ row := by
  rw [target?_eq_some_iff]
  constructor
  · rintro ⟨found, h, target⟩
    exact ⟨_, mem_rows_iff.2 ⟨found, h, rfl⟩,
      Std.TreeMap.mem_toList_iff_getElem?_eq_some.2 target⟩
  · rintro ⟨row, listed, entry⟩
    obtain ⟨found, h, rfl⟩ := mem_rows_iff.1 listed
    exact ⟨found, h, Std.TreeMap.mem_toList_iff_getElem?_eq_some.1 entry⟩

/-- Two tables list the same rows when they have the same numbers and find the same targets. A
number whose row is empty has no targets, so the numbers have to be compared as well. -/
theorem rows_eq_iff : t.rows = u.rows ↔
    (∀ n, n ∈ t ↔ n ∈ u) ∧ ∀ n c, t.target? n c = u.target? n c := by
  constructor
  · intro same
    refine ⟨fun n => ?_, fun n c => Option.ext fun m => ?_⟩
    · rw [mem_iff_exists_mem_rows, mem_iff_exists_mem_rows, same]
    · rw [target?_eq_some_iff_mem_rows, target?_eq_some_iff_mem_rows, same]
  · rintro ⟨numbers, targets⟩
    rw [rows_eq_toList_map, rows_eq_toList_map, ← Std.TreeMap.equiv_iff_toList_eq]
    refine Std.TreeMap.Equiv.of_forall_constGet?_eq fun n => ?_
    have number := numbers n
    have target := targets n
    simp only [Std.TreeMap.mem_iff_isSome_getElem?] at number
    simp only [target?] at target
    rw [Std.TreeMap.getElem?_map, Std.TreeMap.getElem?_map]
    cases ht : t[n]? <;> cases hu : u[n]? <;> simp only [ht, hu] at number target
    case none.none => rfl
    case some.some row row' =>
      exact congrArg some
        (Std.TreeMap.equiv_iff_toList_eq.1 (.of_forall_constGet?_eq target))
    all_goals simp at number

/-- The state that some characters lead to from a state, none if a target is missing on the way. -/
def follow? (t : DfaTable) (n : StateNumber) : List Char → Option StateNumber
  | [] => some n
  | c :: cs =>
    match t.target? n c with
    | none => none
    | some m => follow? t m cs

theorem follow?_append (t : DfaTable) (n : StateNumber) (cs ds : List Char) :
    t.follow? n (cs ++ ds) = (t.follow? n cs).bind (t.follow? · ds) := by
  induction cs generalizing n with
  | nil => rfl
  | cons c cs ih =>
    simp only [List.cons_append, follow?]
    cases t.target? n c with
    | none => rfl
    | some m => exact ih m

end DfaTable

namespace Dfa

/-- The number of the start. -/
def start : StateNumber := 1

/-- The automaton of a table and a set of accepting states, whose alphabet is that of the table in
ascending order. -/
def ofParts (table : DfaTable) (accepting : Std.TreeSet StateNumber) : Dfa :=
  let chars := table.rows.flatMap fun row => row.2.map Prod.fst
  { alphabet := (Std.TreeSet.ofList chars).toList, table, accepting, subsets := none }

/-- Whether the automaton accepts the whole of a text. -/
def accepts (d : Dfa) (text : String) : Bool :=
  match d.table.follow? start text.toList with
  | none => false
  | some n => d.accepting.contains n

/-- Replaces the table and forgets what its states stood for. -/
def setTable (d : Dfa) (table : DfaTable) : Dfa := { d with table, subsets := none }

/-- Replaces the set of accepting states. -/
def setAccepting (d : Dfa) (accepting : Std.TreeSet StateNumber) : Dfa := { d with accepting }

/-- The automaton made anew of its own table and accepting states. -/
def reload (d : Dfa) : Dfa := ofParts d.table d.accepting

/-- One line of an automaton: a star if the state accepts, its number and its targets. -/
def showRow (d : Dfa) (row : StateNumber × List (Char × StateNumber)) : String :=
  let mark := if d.accepting.contains row.1 then "*" else " "
  let targets := row.2.map fun entry => " " ++ entry.1.toString ++ " -> " ++ toString entry.2
  mark ++ toString row.1 ++ ":" ++ String.join targets ++ "\n"

/-- An automaton as it is shown. -/
def text (d : Dfa) : String := String.join (d.table.rows.map d.showRow)

end Dfa

end PatternAutomata
