import Mathlib.Data.List.Basic
import PatternAutomata.Proofs.Compilation

/-!
# Plain syntax trees

An automaton can be made of a pattern when its syntax tree is plain: it consists of characters that
stand for themselves, of concatenations, of alternations, of repetitions that are not counted and of
groups without flags, and nothing in it is empty. A tree in which every directive has some text, as
all trees that are read have, is plain exactly when it sets no flags and its expression is supported
(`Tree.isPlain_iff`).
-/

namespace PatternAutomata

/-- Whether a group sets no flags. -/
def GroupKind.isFlagless : GroupKind → Bool
  | plain flags => flags.isEmpty
  | _ => true

namespace Tree

mutual

/-- Whether a tree consists of nothing but what automata can be made of. -/
def isPlain : Tree → Bool
  | empty _ => false
  | flags _ _ => false
  | literal _ spelling _ => spelling.charKind == .simple
  | dot _ => false
  | assertion _ _ => false
  | classEscape _ _ => false
  | bracketed _ _ _ => false
  | repetition _ quantifier operand => quantifier.kind.isSupported && operand.isPlain
  | group _ kind body => kind.isFlagless && body.isPlain
  | alternation _ branches => !branches.isEmpty && allPlain branches
  | concat _ items => !items.isEmpty && allPlain items

/-- Whether all of some trees are plain. -/
def allPlain : List Tree → Bool
  | [] => true
  | t :: ts => t.isPlain && allPlain ts

end

/-- Whether a tree is a single node other than a directive. -/
def isLeaf : Tree → Bool
  | empty _ => true
  | literal _ _ _ => true
  | dot _ => true
  | assertion _ _ => true
  | classEscape _ _ => true
  | bracketed _ _ _ => true
  | _ => false

mutual

/-- Whether every directive in a tree sets some flag. -/
def isProper : Tree → Bool
  | flags _ text => !text.isEmpty
  | repetition _ _ operand => operand.isProper
  | group _ _ body => body.isProper
  | alternation _ branches => allProper branches
  | concat _ items => allProper items
  | _ => true

/-- Whether every directive in some trees sets some flag. -/
def allProper : List Tree → Bool
  | [] => true
  | t :: ts => t.isProper && allProper ts

end

mutual

/-- The names of the groups of a tree, in the order of the pattern. -/
def names : Tree → List String
  | repetition _ _ operand => operand.names
  | group _ kind body => kind.name?.toList.map Prod.fst ++ body.names
  | alternation _ branches => allNames branches
  | concat _ items => allNames items
  | _ => []

/-- The names of the groups of some trees. -/
def allNames : List Tree → List String
  | [] => []
  | t :: ts => t.names ++ allNames ts

end

/-! ### Lists of trees -/

lemma allPlain_iff (ts : List Tree) : allPlain ts = true ↔ ∀ t ∈ ts, t.isPlain = true := by
  induction ts with
  | nil => simp [allPlain]
  | cons t ts ih => simp [allPlain, ih]

lemma allProper_iff (ts : List Tree) : allProper ts = true ↔ ∀ t ∈ ts, t.isProper = true := by
  induction ts with
  | nil => simp [allProper]
  | cons t ts ih => simp [allProper, ih]

lemma allNames_eq (ts : List Tree) : allNames ts = ts.flatMap names := by
  induction ts with
  | nil => rfl
  | cons t ts ih => simp [allNames, ih]

lemma branchExprs_eq (ts : List Tree) : branchExprs ts = ts.map toExpr := by
  induction ts with
  | nil => rfl
  | cons t ts ih => simp [branchExprs, ih]

/-- Plain items all become items of an expression. -/
lemma itemExprs_eq {ts : List Tree} (h : allPlain ts = true) : itemExprs ts = ts.map toExpr := by
  induction ts with
  | nil => rfl
  | cons t ts ih =>
    simp only [allPlain, Bool.and_eq_true] at h
    cases t with
    | flags span text => cases h.1
    | _ => simp [itemExprs, ih h.2]

end Tree

namespace Expr

/-- The choice between some expressions, grouped to the left. -/
def ofBranches : List Expr → Expr
  | [] => .sequence []
  | e :: es => es.foldl .choice e

/-- A choice grouped to the left is supported when all its branches are. -/
lemma isSupported_foldl_choice (e : Expr) (es : List Expr) :
    (es.foldl .choice e).isSupported = (e.isSupported && allSupported es) := by
  induction es generalizing e with
  | nil => simp [allSupported]
  | cons f es ih => simp [ih, isSupported, allSupported, Bool.and_assoc]

/-- A choice is supported when it has branches and they all are. -/
lemma isSupported_ofBranches (es : List Expr) :
    (ofBranches es).isSupported = (!es.isEmpty && allSupported es) := by
  cases es with
  | nil => rfl
  | cons e es => simp [ofBranches, isSupported_foldl_choice, allSupported]

/-- The words of a choice are those of its branches. -/
lemma through_ofBranches (e : Expr) (es : List Expr) :
    (ofBranches (e :: es)).crossings.through =
      ((e :: es).map fun e => e.crossings.through).sum := by
  have folded : ∀ e : Expr, (es.foldl .choice e).crossings.through =
      e.crossings.through + (es.map fun e => e.crossings.through).sum := by
    induction es with
    | nil => simp
    | cons f es ih =>
      intro e
      rw [List.foldl_cons, ih, crossings, Crossings.union_through, List.map_cons, List.sum_cons,
        add_assoc]
  rw [List.map_cons, List.sum_cons]
  exact folded e

end Expr

namespace Tree

/-- The expression of an alternation is the choice of its branches. -/
lemma toExpr_alternation (span : Span) (branches : List Tree) :
    (alternation span branches).toExpr = .ofBranches (branches.map toExpr) := by
  rw [toExpr, branchExprs_eq]
  cases branches <;> rfl

mutual

/-- A plain tree sets no flags and its expression is supported. -/
theorem supported_of_isPlain (t : Tree) (h : t.isPlain = true) :
    t.flagText = "" ∧ t.toExpr.isSupported = true := by
  cases t with
  | literal span spelling value => exact ⟨rfl, h⟩
  | repetition span quantifier operand =>
    simp only [isPlain, Bool.and_eq_true] at h
    obtain ⟨none, supported⟩ := supported_of_isPlain operand h.2
    exact ⟨none, by simp [toExpr, Expr.isSupported, h.1, supported]⟩
  | group span kind body =>
    simp only [isPlain, Bool.and_eq_true] at h
    obtain ⟨none, supported⟩ := supported_of_isPlain body h.2
    refine ⟨?_, supported⟩
    cases kind with
    | plain flags => simp [flagText, none, by simpa [GroupKind.isFlagless] using h.1]
    | _ => exact none
  | alternation span branches =>
    simp only [isPlain, Bool.and_eq_true] at h
    obtain ⟨none, supported⟩ := allSupported_of_allPlain branches h.2
    refine ⟨none, ?_⟩
    rw [toExpr_alternation, Expr.isSupported_ofBranches, supported]
    simpa using h.1
  | concat span items =>
    simp only [isPlain, Bool.and_eq_true] at h
    obtain ⟨none, supported⟩ := allSupported_of_allPlain items h.2
    refine ⟨none, ?_⟩
    rw [toExpr, itemExprs_eq h.2, Expr.isSupported, supported]
    simpa using h.1
  | _ => cases h

/-- Plain trees set no flags and their expressions are supported. -/
theorem allSupported_of_allPlain (ts : List Tree) (h : allPlain ts = true) :
    allFlagText ts = "" ∧ Expr.allSupported (ts.map toExpr) = true := by
  cases ts with
  | nil => exact ⟨rfl, rfl⟩
  | cons t ts =>
    simp only [allPlain, Bool.and_eq_true] at h
    obtain ⟨none, supported⟩ := supported_of_isPlain t h.1
    obtain ⟨none', supported'⟩ := allSupported_of_allPlain ts h.2
    simp [allFlagText, Expr.allSupported, none, none', supported, supported']

end

mutual

/-- A tree that sets no flags and whose expression is supported is plain, if every directive in it
sets some flag. -/
theorem isPlain_of_supported (t : Tree) (proper : t.isProper = true) (none : t.flagText = "")
    (supported : t.toExpr.isSupported = true) : t.isPlain = true := by
  cases t with
  | literal span spelling value => exact supported
  | repetition span quantifier operand =>
    simp only [toExpr, Expr.isSupported, Bool.and_eq_true] at supported
    rw [isPlain, supported.1, isPlain_of_supported operand proper none supported.2]
    rfl
  | group span kind body =>
    cases kind with
    | plain flags =>
      simp only [flagText, String.append_eq_empty_iff] at none
      rw [isPlain, isPlain_of_supported body proper none.2 supported, GroupKind.isFlagless, none.1]
      rfl
    | _ =>
      rw [isPlain, isPlain_of_supported body proper none supported]
      rfl
  | alternation span branches =>
    rw [toExpr_alternation, Expr.isSupported_ofBranches, Bool.and_eq_true] at supported
    rw [isPlain, allPlain_of_supported branches proper none supported.2]
    simpa using supported.1
  | concat span items =>
    rw [toExpr, Expr.isSupported, Bool.and_eq_true] at supported
    rw [isPlain, allPlain_of_items items proper none supported.2]
    cases items with
    | nil => exact supported.1
    | cons t ts => rfl
  | _ => cases supported

/-- Branches that set no flags and whose expressions are supported are plain. -/
theorem allPlain_of_supported (ts : List Tree) (proper : allProper ts = true)
    (none : allFlagText ts = "") (supported : Expr.allSupported (ts.map toExpr) = true) :
    allPlain ts = true := by
  cases ts with
  | nil => rfl
  | cons t ts =>
    simp only [allProper, Bool.and_eq_true] at proper
    simp only [allFlagText, String.append_eq_empty_iff] at none
    simp only [List.map_cons, Expr.allSupported, Bool.and_eq_true] at supported
    rw [allPlain, isPlain_of_supported t proper.1 none.1 supported.1,
      allPlain_of_supported ts proper.2 none.2 supported.2]
    rfl

/-- Items that set no flags and whose expressions are supported are plain: none of them is a
directive. -/
theorem allPlain_of_items (ts : List Tree) (proper : allProper ts = true)
    (none : allFlagText ts = "") (supported : Expr.allSupported (itemExprs ts) = true) :
    allPlain ts = true := by
  cases ts with
  | nil => rfl
  | cons t ts =>
    simp only [allProper, Bool.and_eq_true] at proper
    simp only [allFlagText, String.append_eq_empty_iff] at none
    have rest := allPlain_of_items ts proper.2 none.2
    have first := isPlain_of_supported t proper.1 none.1
    cases t with
    | flags span text =>
      have empty : text = "" := none.1
      rw [isProper, empty] at proper
      cases proper.1
    | _ =>
      simp only [itemExprs, Expr.allSupported, Bool.and_eq_true] at supported
      rw [allPlain, first supported.1, rest supported.2]
      rfl

end

/-- A tree in which every directive sets some flag is plain exactly when there are no directives and
its expression is supported. -/
theorem isPlain_iff (t : Tree) (proper : t.isProper = true) :
    t.isPlain = true ↔ t.flagText = "" ∧ t.toExpr.isSupported = true :=
  ⟨t.supported_of_isPlain, fun h => t.isPlain_of_supported proper h.1 h.2⟩

end Tree

end PatternAutomata
