import PatternAutomata.Proofs.Compilation

/-!
# Why expressions do not compile

The nodes of an expression for which there are no automata offend: `Expr.offences` lists what they
are reported as, in the order in which a compilation meets them. A root offends before its body, and
a counted repetition after its operand. The first offence is the error of the compilation, whatever
the arena is (`Expr.run_compile_eq_error`), so an expression compiles only when it is supported
(`Expr.isSupported_of_run`), and without offences there is an automaton.
-/

namespace PatternAutomata

open Build

/-- A construction fails when its first part fails. -/
lemma Build.run_bind_of_error {α β : Type} {make : Build α} {next : α → Build β} {a : Arena}
    {error : Error} (h : make.run a = .error error) : (make >>= next).run a = .error error := by
  rw [StateT.run_bind, h]
  rfl

namespace QuantifierKind

/-- What a repetition of a kind is reported as, if it offends. -/
def offences : QuantifierKind → List Unsupported
  | range min max => [.countedRepetition (.range min max)]
  | _ => []

lemma offences_eq_nil_iff (kind : QuantifierKind) :
    kind.offences = [] ↔ kind.isSupported = true := by
  cases kind <;> simp [offences, isSupported]

end QuantifierKind

/-- What a character of a kind is reported as, if it offends. -/
def CharKind.offences (value : Char) : CharKind → List Unsupported
  | simple => []
  | kind => [.character kind value]

lemma CharKind.offences_eq_nil_iff (value : Char) (kind : CharKind) :
    kind.offences value = [] ↔ kind = simple := by
  cases kind <;> simp [offences]

namespace Expr

mutual

/-- What the offending nodes of an expression are reported as, in the order in which a compilation
meets them. -/
def offences : Expr → List Unsupported
  | root flags body => (if flags.isEmpty then [] else [.flags flags]) ++ body.offences
  | sequence items => (if items.isEmpty then [.emptyExpression] else []) ++ allOffences items
  | choice left right => left.offences ++ right.offences
  | repetition quantifier operand => operand.offences ++ quantifier.kind.offences
  | char kind value => kind.offences value
  | group _ body => body.offences
  | charClass text => [.charClass text]
  | assertion text => [.assertion text]
  | backreference text => [.backreference text]

/-- What the offending nodes of some expressions are reported as, from left to right. -/
def allOffences : List Expr → List Unsupported
  | [] => []
  | e :: es => e.offences ++ allOffences es

end

mutual

/-- An expression is supported when no node of it offends. -/
theorem offences_eq_nil_iff (e : Expr) : e.offences = [] ↔ e.isSupported = true := by
  cases e with
  | root flags body => simp [offences, isSupported, offences_eq_nil_iff body]
  | sequence items => simp [offences, isSupported, allOffences_eq_nil_iff items]
  | choice left right =>
    simp [offences, isSupported, offences_eq_nil_iff left, offences_eq_nil_iff right]
  | repetition quantifier operand =>
    rw [offences, isSupported, List.append_eq_nil_iff, Bool.and_eq_true,
      offences_eq_nil_iff operand, quantifier.kind.offences_eq_nil_iff, and_comm]
  | char kind value => rw [offences, isSupported, beq_iff_eq, kind.offences_eq_nil_iff]
  | group capturing body => rw [offences, isSupported, offences_eq_nil_iff body]
  | charClass text => simp [offences, isSupported]
  | assertion text => simp [offences, isSupported]
  | backreference text => simp [offences, isSupported]

/-- Expressions are supported when no node of them offends. -/
theorem allOffences_eq_nil_iff (es : List Expr) :
    allOffences es = [] ↔ allSupported es = true := by
  cases es with
  | nil => simp [allOffences, allSupported]
  | cons e es =>
    simp [allOffences, allSupported, offences_eq_nil_iff e, allOffences_eq_nil_iff es]

end

variable {first : Unsupported}

/-- An expression without offences compiles in every arena. -/
lemma exists_run_compile {e : Expr} (none : e.offences = []) (a : Arena) :
    ∃ f b, e.compile.run a = .ok (f, b) := by
  obtain ⟨f, b, run, -⟩ := e.compile_yields ((offences_eq_nil_iff e).1 none) a
  exact ⟨f, b, run⟩

mutual

/-- An expression fails to compile with its first offence, whatever the arena is. -/
theorem run_compile_eq_error (e : Expr) {others : List Unsupported}
    (h : e.offences = first :: others) (a : Arena) :
    e.compile.run a = .error (.unsupported first) := by
  cases e with
  | root flags body =>
    rw [offences] at h
    rw [compile]
    split_ifs at h ⊢
    · exact run_compile_eq_error body h a
    · cases h
      rfl
  | sequence items =>
    rw [offences] at h
    rw [compile]
    cases items with
    | nil =>
      cases h
      rfl
    | cons e es => exact run_bind_of_error (run_compileAll_eq_error (e :: es) h a)
  | choice left right =>
    rw [offences, List.append_eq_cons_iff] at h
    rw [compile]
    -- the right side matters only when nothing on the left offends
    obtain ⟨none, right_first⟩ | ⟨more, left_first, -⟩ := h
    · obtain ⟨f, b, run⟩ := exists_run_compile none a
      rw [run_bind_of_run run]
      exact run_bind_of_error (run_compile_eq_error right right_first b)
    · exact run_bind_of_error (run_compile_eq_error left left_first a)
  | repetition quantifier operand =>
    rw [offences, List.append_eq_cons_iff] at h
    rw [compile]
    obtain ⟨none, counted⟩ | ⟨more, operand_first, -⟩ := h
    · obtain ⟨f, b, run⟩ := exists_run_compile none a
      rw [run_bind_of_run run]
      obtain ⟨kind, greedy⟩ := quantifier
      cases kind <;> cases counted
      rfl
    · exact run_bind_of_error (run_compile_eq_error operand operand_first a)
  | char kind value => cases kind <;> cases h <;> rfl
  | group capturing body =>
    rw [compile]
    exact run_compile_eq_error body h a
  | charClass text =>
    cases h
    rfl
  | assertion text =>
    cases h
    rfl
  | backreference text =>
    cases h
    rfl

/-- Some expressions fail to compile with their first offence, whatever the arena is. -/
theorem run_compileAll_eq_error (es : List Expr) {others : List Unsupported}
    (h : allOffences es = first :: others) (a : Arena) :
    (compileAll es).run a = .error (.unsupported first) := by
  cases es with
  | nil => cases h
  | cons e es =>
    rw [allOffences, List.append_eq_cons_iff] at h
    rw [compileAll]
    obtain ⟨none, rest_first⟩ | ⟨more, e_first, -⟩ := h
    · obtain ⟨f, b, run⟩ := exists_run_compile none a
      rw [run_bind_of_run run]
      exact run_bind_of_error (run_compileAll_eq_error es rest_first b)
    · exact run_bind_of_error (run_compile_eq_error e e_first a)

end

/-- An expression that compiles is supported. -/
theorem isSupported_of_run (e : Expr) {a b : Arena} {f : Fragment}
    (h : e.compile.run a = .ok (f, b)) : e.isSupported = true := by
  rw [← offences_eq_nil_iff]
  rcases offends : e.offences with _ | ⟨o, more⟩
  · rfl
  · rw [run_compile_eq_error e offends a] at h
    cases h

end Expr

namespace Automaton

variable {e : Expr}

/-- An expression without offences has an automaton. -/
lemma exists_ofExpr (none : e.offences = []) : ∃ nfa, ofExpr e = .ok nfa := by
  obtain ⟨nfa, made, -⟩ :=
    construct_of_yields (e.compile_yields ((Expr.offences_eq_nil_iff e).1 none) .empty)
  exact ⟨nfa, made⟩

/-- The error of an expression is its first offence. -/
lemma ofExpr_eq_error {first : Unsupported} {others : List Unsupported}
    (h : e.offences = first :: others) : ofExpr e = .error (.unsupported first) := by
  rw [ofExpr, construct, e.run_compile_eq_error h .empty]
  rfl

end Automaton

end PatternAutomata
