import PatternAutomata.Proofs.Compiled

/-!
# The first offence

Whether a node of an expression offends can be told from the node alone, without its parts
(`Expr.offence?`). A compilation comes to the nodes from left to right, to the parts of a node
before what stands behind it; a repetition is judged after its operand, every other node before its
parts. `Expr.nodes` lists the nodes in this order, and they are all the nodes there are at any depth
(`Expr.mem_nodes_iff`). An expression has an automaton exactly when none of them offends, and
otherwise its error is that of the first one that does (`Automaton.ofExpr_reports_first_offence`).
-/

namespace PatternAutomata

namespace Expr

/-- The parts of a node, from left to right. -/
def parts : Expr → List Expr
  | root _ body => [body]
  | sequence items => items
  | choice left right => [left, right]
  | repetition _ operand => [operand]
  | group _ body => [body]
  | char .. | charClass _ | assertion _ | backreference _ => []

mutual

/-- The nodes of an expression in the order in which a compilation judges them. -/
def nodes : Expr → List Expr
  | root flags body => root flags body :: nodes body
  | sequence items => sequence items :: allNodes items
  | choice left right => choice left right :: (nodes left ++ nodes right)
  | repetition quantifier operand => nodes operand ++ [repetition quantifier operand]
  | group capturing body => group capturing body :: nodes body
  | char kind value => [char kind value]
  | charClass text => [charClass text]
  | assertion text => [assertion text]
  | backreference text => [backreference text]

/-- The nodes of some expressions, from left to right. -/
def allNodes : List Expr → List Expr
  | [] => []
  | e :: es => nodes e ++ allNodes es

end

/-- What a node is reported as if it offends, whatever its parts are. -/
def offence? : Expr → Option Unsupported
  | root flags _ => if flags.isEmpty then none else some (.flags flags)
  | sequence items => if items.isEmpty then some .emptyExpression else none
  | choice .. => none
  | repetition quantifier _ =>
    match quantifier.kind with
    | .range min max => some (.countedRepetition (.range min max))
    | _ => none
  | char kind value => if kind = .simple then none else some (.character kind value)
  | group .. => none
  | charClass text => some (.charClass text)
  | assertion text => some (.assertion text)
  | backreference text => some (.backreference text)

/-! ### The nodes of an expression -/

/-- An expression is one of its nodes. -/
lemma self_mem_nodes (e : Expr) : e ∈ e.nodes := by
  cases e <;> simp [nodes]

/-- The nodes of some expressions are those of each of them. -/
lemma mem_allNodes_iff {node : Expr} {es : List Expr} :
    node ∈ allNodes es ↔ ∃ e ∈ es, node ∈ e.nodes := by
  induction es with
  | nil => simp [allNodes]
  | cons e es ih => simp [allNodes, ih]

/-- The nodes of an expression are itself and those of its parts. -/
lemma mem_nodes_iff_parts {node e : Expr} :
    node ∈ e.nodes ↔ node = e ∨ ∃ part ∈ e.parts, node ∈ part.nodes := by
  cases e with
  | sequence items => simp [nodes, parts, mem_allNodes_iff]
  | repetition quantifier operand => simp [nodes, parts, or_comm]
  | root | choice | group | char | charClass | assertion | backreference => simp [nodes, parts]

/-- A part is smaller than the expression. -/
lemma sizeOf_lt_of_mem_parts {part e : Expr} (h : part ∈ e.parts) : sizeOf part < sizeOf e := by
  cases e with
  | sequence items =>
    have inside : sizeOf part < sizeOf items := List.sizeOf_lt_of_mem h
    rw [sequence.sizeOf_spec]
    omega
  | choice left right =>
    rw [choice.sizeOf_spec]
    rcases List.mem_pair.1 h with rfl | rfl <;> omega
  | root | repetition | group =>
    obtain rfl := List.mem_singleton.1 h
    simp
  | char | charClass | assertion | backreference => cases h

/-- Every node is found in the expression at some depth. -/
lemma reaches_of_mem_nodes {node e : Expr} (h : node ∈ e.nodes) : Reaches parts e node := by
  rcases mem_nodes_iff_parts.1 h with rfl | ⟨part, mem, inside⟩
  · exact .refl
  · exact .head mem (reaches_of_mem_nodes inside)
termination_by sizeOf e
decreasing_by exact sizeOf_lt_of_mem_parts mem

/-- The nodes of an expression are all that is found in it at any depth. -/
lemma mem_nodes_iff {node e : Expr} : node ∈ e.nodes ↔ Reaches parts e node := by
  refine ⟨reaches_of_mem_nodes, fun h => ?_⟩
  induction h using Relation.ReflTransGen.head_induction_on with
  | refl => exact node.self_mem_nodes
  | head edge _ ih => exact mem_nodes_iff_parts.2 (.inr ⟨_, edge, ih⟩)

/-! ### Offences of nodes -/

mutual

/-- The offences of an expression are those of its nodes, in the same order. -/
theorem filterMap_nodes (e : Expr) : e.nodes.filterMap offence? = e.offences := by
  cases e with
  | root flags body =>
    rw [nodes, offences, List.filterMap_cons, filterMap_nodes body, offence?]
    split_ifs <;> rfl
  | sequence items =>
    rw [nodes, offences, List.filterMap_cons, filterMap_allNodes items, offence?]
    split_ifs <;> rfl
  | choice left right =>
    rw [nodes, offences, List.filterMap_cons, List.filterMap_append, filterMap_nodes left,
      filterMap_nodes right]
    rfl
  | repetition quantifier operand =>
    obtain ⟨kind, greedy⟩ := quantifier
    rw [nodes, offences, List.filterMap_append, filterMap_nodes operand]
    cases kind <;> rfl
  | char kind value => cases kind <;> rfl
  | group capturing body =>
    rw [nodes, offences, List.filterMap_cons, filterMap_nodes body]
    rfl
  | charClass | assertion | backreference => rfl

/-- The offences of some expressions are those of their nodes, in the same order. -/
theorem filterMap_allNodes (es : List Expr) :
    (allNodes es).filterMap offence? = allOffences es := by
  cases es with
  | nil => rfl
  | cons e es =>
    rw [allNodes, allOffences, List.filterMap_append, filterMap_nodes e, filterMap_allNodes es]

end

variable {e : Expr}

/-- The first offence is that of the first node that offends. -/
lemma findSome?_nodes (e : Expr) : e.nodes.findSome? offence? = e.offences.head? := by
  rw [← filterMap_nodes, List.head?_filterMap]

/-- An expression without offences is one whose nodes do not offend, at whatever depth. -/
lemma offences_eq_nil_iff_forall :
    e.offences = [] ↔ ∀ node, Reaches parts e node → node.offence? = none := by
  rw [← List.head?_eq_none_iff, ← findSome?_nodes, List.findSome?_eq_none_iff]
  simp only [mem_nodes_iff]

/-- A compilation fails with the first offence, and in no other way, whatever states there are
already. -/
lemma run_compile_eq_error_iff (e : Expr) (a : Arena) (error : Error) :
    e.compile.run a = .error error ↔
      ∃ construct, e.nodes.findSome? offence? = some construct ∧
        error = .unsupported construct := by
  rw [findSome?_nodes]
  rcases offends : e.offences with _ | ⟨first, others⟩
  · obtain ⟨f, b, run⟩ := exists_run_compile offends a
    simp [run]
  · simp [run_compile_eq_error e offends a, eq_comm]

end Expr

namespace Automaton

variable {e : Expr} {error : Error}

/-- An expression has an automaton exactly when no node of it offends. -/
lemma exists_ofExpr_iff :
    (∃ nfa, ofExpr e = .ok nfa) ↔ ∀ node, Reaches Expr.parts e node → node.offence? = none := by
  rw [← Expr.offences_eq_nil_iff_forall]
  refine ⟨fun ⟨nfa, made⟩ => ?_, exists_ofExpr⟩
  exact (Expr.offences_eq_nil_iff e).2 (isSupported_of_ofExpr made)

/-- An expression without an automaton is refused for its first node that offends. -/
lemma ofExpr_eq_error_iff :
    ofExpr e = .error error ↔
      ∃ construct, e.nodes.findSome? Expr.offence? = some construct ∧
        error = .unsupported construct := by
  rw [Expr.findSome?_nodes]
  rcases offends : e.offences with _ | ⟨first, others⟩
  · obtain ⟨nfa, made⟩ := exists_ofExpr offends
    simp [made]
  · simp [ofExpr_eq_error offends, eq_comm]

/-- An expression has an automaton exactly when no node of it offends, at whatever depth. Otherwise
its error is that of the first node that offends, and nothing else can go wrong. The states that
are there before a compilation begins have no part in how it fails. -/
theorem ofExpr_reports_first_offence (e : Expr) :
    ((∃ nfa, ofExpr e = .ok nfa) ↔ ∀ node, Reaches Expr.parts e node → node.offence? = none) ∧
    (∀ error, ofExpr e = .error error ↔
      ∃ construct, e.nodes.findSome? Expr.offence? = some construct ∧
        error = .unsupported construct) ∧
    ∀ a error, e.compile.run a = .error error ↔ ofExpr e = .error error := by
  refine ⟨exists_ofExpr_iff, fun error => ofExpr_eq_error_iff, fun a error => ?_⟩
  exact (e.run_compile_eq_error_iff a error).trans ofExpr_eq_error_iff.symm

/-- What a repetition is reported for comes after all of its operand, and flags before what they
apply to. -/
example :
    (Expr.repetition ⟨.range 2 none, true⟩ (.root "i" (.charClass "[ab]"))).nodes.filterMap
      Expr.offence? = [.flags "i", .charClass "[ab]", .countedRepetition (.range 2 none)] := by
  decide

end Automaton

end PatternAutomata
