import PatternAutomata.Proofs.Reloading

/-!
# Compiled automata are trim

An expression compiles to two states for each of its characters and each of its choices, and to
nothing else: sequences and repetitions only add edges that consume nothing. All these states lie
between the entry and the exit of the automaton, so each of them has a number, and its alphabet
consists of the characters of the expression (`Automaton.ofExpr_trim`).

The states and characters are counted along the construction. `Build.Adds` says how many states a
construction adds and with which characters it puts labels on edges, and parts that are put one
after the other add up.
-/

namespace PatternAutomata

open Build

/-! ### What a construction adds -/

/-- The characters that an edge with a label consumes. -/
def Symbol.chars : Symbol → List Char
  | epsilon => []
  | char c => [c]

namespace Arena

/-- Some state has edges with a label. -/
def HasLabel (a : Arena) (label : Symbol) : Prop := ∃ id, label ∈ (a.state id).edges.map Prod.fst

/-- An arena has become one with `n` more states, and with edges for the characters `cs`. -/
structure Grows (a b : Arena) (n : ℕ) (cs : List Char) : Prop where
  size_eq : b.size = a.size + n
  hasLabel_iff : ∀ c, b.HasLabel (.char c) ↔ a.HasLabel (.char c) ∨ c ∈ cs

variable {a b c : Arena} {m n : ℕ} {cs ds : List Char} {s t : StateId} {symbol label : Symbol}

lemma hasLabel_empty : ¬empty.HasLabel label := by
  rintro ⟨id, mem⟩
  rw [state_of_size_le (Nat.zero_le id)] at mem
  cases mem

/-- Labels depend on the edges alone. -/
lemma hasLabel_congr (h : ∀ id, (b.state id).edges = (a.state id).edges) :
    b.HasLabel label ↔ a.HasLabel label := by
  simp only [HasLabel, h]

/-- Another edge adds its label. -/
lemma hasLabel_connect (h : s < a.size) :
    (a.connect s symbol t).HasLabel label ↔ a.HasLabel label ∨ label = symbol := by
  have labels : ∀ id, label ∈ ((a.connect s symbol t).state id).edges.map Prod.fst ↔
      label ∈ (a.state id).edges.map Prod.fst ∨ id = s ∧ label = symbol := by
    intro id
    rw [state_connect h]
    split
    · rw [State.connect, State.map_fst_addTarget]
      grind
    · simp [*]
  simp only [HasLabel, labels, exists_or, exists_eq_left]

lemma Grows.refl (a : Arena) : a.Grows a 0 [] := ⟨rfl, by simp⟩

lemma Grows.push (a : Arena) (accepting : Bool) : a.Grows (a.push (.new accepting)) 1 [] :=
  ⟨a.size_push _, fun c => by simp [hasLabel_congr fun _ => edges_push]⟩

lemma Grows.mark (a : Arena) (s : StateId) (accepting : Bool) :
    a.Grows (a.mark s accepting) 0 [] :=
  ⟨size_mark, fun c => by simp [hasLabel_congr fun _ => edges_mark]⟩

lemma Grows.connect (h : s < a.size) (symbol : Symbol) (t : StateId) :
    a.Grows (a.connect s symbol t) 0 symbol.chars where
  size_eq := size_connect
  hasLabel_iff c := by
    rw [hasLabel_connect h]
    cases symbol <;> simp [Symbol.chars]

lemma Grows.trans (first : a.Grows b m cs) (second : b.Grows c n ds) :
    a.Grows c (m + n) (cs ++ ds) where
  size_eq := by rw [second.size_eq, first.size_eq, Nat.add_assoc]
  hasLabel_iff x := by
    rw [second.hasLabel_iff, first.hasLabel_iff, List.mem_append, or_assoc]

end Arena

namespace Build

open Arena

/-- A construction that succeeds adds `n` states, and edges for the characters `cs`. -/
def Adds {α : Type} (make : Build α) (n : ℕ) (cs : List Char) : Prop :=
  ∀ ⦃a b : Arena⦄ ⦃r : α⦄, make.run a = .ok (r, b) → a.Grows b n cs

variable {α β : Type} {make : Build α} {next : α → Build β} {m n : ℕ} {cs ds : List Char}

lemma adds_pure (r : α) : (pure r : Build α).Adds 0 [] := by
  intro a b q h
  cases h
  exact .refl a

lemma adds_fail (e : Error) : (fail e : Build α).Adds n cs := fun _ _ _ h => nomatch h

lemma Adds.bind (first : make.Adds m cs) (second : ∀ r, (next r).Adds n ds) :
    (make >>= next).Adds (m + n) (cs ++ ds) := by
  intro a c q h
  obtain ⟨r, b, run, run'⟩ := exists_of_run_bind h
  exact (first run).trans (second r run')

/-- A part that adds nothing may stand before another one. -/
lemma Adds.silent_bind (first : make.Adds 0 []) (second : ∀ r, (next r).Adds n ds) :
    (make >>= next).Adds n ds := by
  simpa using first.bind second

/-- A part that adds nothing may stand behind another one. -/
lemma Adds.bind_silent (first : make.Adds m cs) (second : ∀ r, (next r).Adds 0 []) :
    (make >>= next).Adds m cs := by
  simpa using first.bind second

lemma addState_adds (accepting : Bool) : (addState accepting).Adds 1 [] := by
  intro a b r h
  cases h
  exact .push a accepting

lemma setAccepting_adds (s : StateId) (accepting : Bool) :
    (setAccepting s accepting).Adds 0 [] := by
  intro a b r h
  obtain ⟨-, rfl⟩ := lt_of_run_edit h
  exact .mark a s accepting

lemma connect_adds (s : StateId) (symbol : Symbol) (t : StateId) :
    (connect s symbol t).Adds 0 symbol.chars := by
  intro a b r h
  obtain ⟨there, rfl⟩ := lt_of_run_edit h
  exact .connect there symbol t

/-- A construction that is folded over some things adds nothing when its parts do not. -/
lemma foldlM_adds {op : α → β → Build α} (each : ∀ r q, (op r q).Adds 0 []) (r : α) (qs : List β) :
    (qs.foldlM op r).Adds 0 [] := by
  induction qs generalizing r with
  | nil => exact adds_pure r
  | cons q qs ih => exact (each r q).silent_bind ih

end Build

namespace Fragment

lemma char_adds (c : Char) : (char c).Adds 2 [c] :=
  (addState_adds _).bind fun _ => (addState_adds _).bind fun _ =>
    (connect_adds _ (.char c) _).bind_silent fun _ => adds_pure _

lemma concat_adds (f g : Fragment) : (f.concat g).Adds 0 [] :=
  (setAccepting_adds _ _).silent_bind fun _ => (setAccepting_adds _ _).silent_bind fun _ =>
    (connect_adds _ .epsilon _).silent_bind fun _ => adds_pure _

lemma union_adds (f g : Fragment) : (f.union g).Adds 2 [] := by
  have edge : ∀ s t, (connect s .epsilon t).Adds 0 [] := fun s t => connect_adds s .epsilon t
  refine (addState_adds _).bind fun entry => (addState_adds _).bind_silent fun exit => ?_
  refine (edge _ _).silent_bind fun _ => (edge _ _).silent_bind fun _ => ?_
  refine (setAccepting_adds _ _).silent_bind fun _ => (setAccepting_adds _ _).silent_bind fun _ => ?_
  exact (edge _ _).silent_bind fun _ => (edge _ _).silent_bind fun _ => adds_pure _

lemma star_adds (f : Fragment) : f.star.Adds 0 [] :=
  (connect_adds _ .epsilon _).silent_bind fun _ =>
    (connect_adds _ .epsilon _).silent_bind fun _ => adds_pure _

lemma plus_adds (f : Fragment) : f.plus.Adds 0 [] :=
  (connect_adds _ .epsilon _).silent_bind fun _ => adds_pure _

lemma optional_adds (f : Fragment) : f.optional.Adds 0 [] :=
  (connect_adds _ .epsilon _).silent_bind fun _ => adds_pure _

end Fragment

/-! ### Expressions -/

namespace Expr

open Fragment

mutual

/-- The characters of an expression, from left to right. -/
def values : Expr → List Char
  | root _ body => body.values
  | sequence items => allValues items
  | choice left right => left.values ++ right.values
  | repetition _ operand => operand.values
  | char _ value => [value]
  | group _ body => body.values
  | charClass _ => []
  | assertion _ => []
  | backreference _ => []

/-- The characters of some expressions, from left to right. -/
def allValues : List Expr → List Char
  | [] => []
  | e :: es => e.values ++ allValues es

end

mutual

/-- The number of choices in an expression. -/
def choices : Expr → ℕ
  | root _ body => body.choices
  | sequence items => allChoices items
  | choice left right => left.choices + right.choices + 1
  | repetition _ operand => operand.choices
  | char _ _ => 0
  | group _ body => body.choices
  | charClass _ => 0
  | assertion _ => 0
  | backreference _ => 0

/-- The number of choices in some expressions. -/
def allChoices : List Expr → ℕ
  | [] => 0
  | e :: es => e.choices + allChoices es

end

mutual

/-- Compiling an expression adds two states for each of its characters and choices, and edges for
its characters. -/
theorem compile_adds (e : Expr) : e.compile.Adds (2 * (e.values.length + e.choices)) e.values := by
  cases e with
  | root flags body =>
    rw [compile]
    split
    · exact compile_adds body
    · exact adds_fail _
  | sequence items =>
    rw [compile]
    refine (compileAll_adds items).bind_silent fun fs => ?_
    cases fs with
    | nil => exact adds_fail _
    | cons f fs => exact foldlM_adds concat_adds f fs
  | choice left right =>
    have made : (choice left right).compile.Adds (2 * (left.values.length + left.choices) +
        (2 * (right.values.length + right.choices) + 2)) (left.values ++ (right.values ++ [])) := by
      rw [compile]
      exact (compile_adds left).bind fun f => (compile_adds right).bind fun g => union_adds f g
    simp only [values, choices, List.length_append]
    convert made using 1
    · omega
    · rw [List.append_nil]
  | repetition quantifier operand =>
    rw [compile]
    refine (compile_adds operand).bind_silent fun f => ?_
    split
    · exact star_adds f
    · exact plus_adds f
    · exact optional_adds f
    · exact adds_fail _
  | char kind value =>
    cases kind with
    | simple => exact char_adds value
    | _ => exact adds_fail _
  | group capturing body =>
    rw [compile]
    exact compile_adds body
  | charClass text | assertion text | backreference text => exact adds_fail _

/-- Compiling some expressions adds two states for each of their characters and choices, and edges
for their characters. -/
theorem compileAll_adds (es : List Expr) :
    (compileAll es).Adds (2 * ((allValues es).length + allChoices es)) (allValues es) := by
  cases es with
  | nil => exact adds_pure _
  | cons e es =>
    have made : (compileAll (e :: es)).Adds (2 * (e.values.length + e.choices) +
        2 * ((allValues es).length + allChoices es)) (e.values ++ allValues es) := by
      rw [compileAll]
      exact (compile_adds e).bind fun f => (compileAll_adds es).bind_silent fun fs => adds_pure _
    simp only [allValues, allChoices, List.length_append]
    convert made using 1
    omega

end

end Expr

/-! ### Automata -/

namespace Automaton

variable {e : Expr} {nfa : Automaton}

/-- The alphabet of an automaton all of whose states can be reached has the characters before all
edges. -/
lemma mem_alphabet_iff_hasLabel {c : Char} (all : ∀ id < nfa.size, id ∈ nfa.order) :
    c ∈ nfa.alphabet ↔ nfa.arena.HasLabel (.char c) := by
  have mem : ∀ id, (∃ targets, (Symbol.char c, targets) ∈ (nfa.arena.state id).edges) ↔
      Symbol.char c ∈ (nfa.arena.state id).edges.map Prod.fst := by simp
  simp only [mem_alphabet_iff, mem]
  constructor
  · rintro ⟨id, -, label⟩
    exact ⟨id, label⟩
  · rintro ⟨id, label⟩
    refine ⟨id, all id (Nat.lt_of_not_le fun missing => ?_), label⟩
    rw [Arena.state_of_size_le missing] at label
    cases label

/-- A table has as many rows as there are states when all of them can be reached. -/
lemma size_table_of_forall_mem (h : ∀ id, id ∈ nfa.order ↔ id < nfa.size) :
    nfa.table.size = nfa.size := by
  have perm : nfa.order.Perm (List.range nfa.size) :=
    (List.perm_ext_iff_of_nodup nfa.nodup_order List.nodup_range).2 fun id => by
      rw [h, List.mem_range]
  simp [table, NumberedTable.size, perm.length_eq]

/-- The automaton of an expression has two states for each character and each choice of the
expression. All of them can be reached from the entry and lead to the exit, the table has a row for
each of them, and the alphabet consists of the characters of the expression. -/
theorem ofExpr_trim (h : ofExpr e = .ok nfa) :
    nfa.size = 2 * (e.values.length + e.choices) ∧
      (∀ id < nfa.size, nfa.arena.Reach nfa.entry id ∧ nfa.arena.Reach id nfa.exit) ∧
        nfa.table.size = nfa.size ∧ (∀ id < nfa.size, (nfa.number? id).isSome = true) ∧
          ∀ c, c ∈ nfa.table.alphabet ↔ c ∈ e.values := by
  have own := occupies_of_ofExpr h
  obtain ⟨run, made⟩ := run_compile_of_ofExpr h
  have built := Built.of_build made
  obtain ⟨size, labels⟩ := e.compile_adds run
  have order : ∀ id, id ∈ nfa.order ↔ id < nfa.size := fun id =>
    ⟨built.order_lt id, fun lt => built.mem_order_iff.2 (own.reached id lt)⟩
  refine ⟨?_, fun id lt => ⟨own.reached id lt, own.leads id lt⟩, size_table_of_forall_mem order,
    fun id lt => ?_, fun c => ?_⟩
  · exact size.trans (Nat.zero_add _)
  · exact Option.isSome_iff_exists.2 (exists_number_iff.2 ((order id).2 lt))
  · have alphabet := mem_alphabet_iff_hasLabel (c := c) fun id => (order id).2
    exact alphabet.trans ((labels c).trans (or_iff_right Arena.hasLabel_empty))

/-- Choices within sequences and repetitions, as in `(?:(a|bc)*|a)+b`. -/
def repeatedChoices : Expr :=
  .sequence
    [.repetition ⟨.oneOrMore, true⟩ (.group false (.choice
      (.repetition ⟨.zeroOrMore, true⟩ (.group true
        (.choice (.char .simple 'a') (.sequence [.char .simple 'b', .char .simple 'c']))))
      (.char .simple 'a'))),
     .char .simple 'b']

theorem ofExpr_trim_repeatedChoices : ∃ nfa, ofExpr repeatedChoices = .ok nfa ∧
    nfa.size = 14 ∧
      (∀ id < nfa.size, nfa.arena.Reach nfa.entry id ∧ nfa.arena.Reach id nfa.exit) ∧
        nfa.table.size = nfa.size ∧ (∀ id < nfa.size, (nfa.number? id).isSome = true) ∧
          ∀ c, c ∈ nfa.table.alphabet ↔ c ∈ ['a', 'b', 'c', 'a', 'b'] := by
  obtain ⟨nfa, made⟩ := exists_ofExpr (e := repeatedChoices) (by decide)
  exact ⟨nfa, made, ofExpr_trim made⟩

end Automaton

end PatternAutomata
