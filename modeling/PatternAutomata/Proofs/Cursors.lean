import Mathlib.Data.List.Basic
import Mathlib.Logic.Function.Iterate
import PatternAutomata.Pattern.Opening

/-!
# Cursors outside verbose mode

Outside verbose mode nothing is skipped, so the movements of a cursor are operations on the list of
the characters that are still to be read: `next` drops the first one, the characters that a cursor
takes are the longest prefix of a kind, and a word is under the cursor when it is a prefix. None of
them enters or leaves verbose mode.
-/

namespace PatternAutomata.Cursor

variable {c d : Cursor} {rest : List Char}

/-- Outside verbose mode no characters are skipped. -/
lemma skip_of_terse (h : c.verbose = false) : c.skip = c := by
  rw [skip, h]
  rfl

@[simp]
lemma rest_next (c : Cursor) : c.next.rest = c.rest.tail := by
  unfold next
  split <;> simp_all

@[simp]
lemma verbose_next (c : Cursor) : c.next.verbose = c.verbose := by
  unfold next
  split <;> rfl

@[simp]
lemma verbose_nextSkip (c : Cursor) : c.nextSkip.verbose = c.verbose := by
  unfold nextSkip skip
  split <;> exact c.verbose_next

lemma nextSkip_of_terse (h : c.verbose = false) : c.nextSkip = c.next :=
  skip_of_terse (c.verbose_next.trans h)

/-- Outside verbose mode a cursor moves to the character after the next one. -/
lemma rest_nextSkip_of_terse {x : Char} (h : c.verbose = false) (under : c.rest = x :: rest) :
    c.nextSkip.rest = rest := by
  rw [nextSkip_of_terse h, rest_next, under, List.tail_cons]

lemma rest_iterate_next (n : Nat) (c : Cursor) : (next^[n] c).rest = c.rest.drop n := by
  induction n generalizing c with
  | zero => rfl
  | succ n ih => rw [Function.iterate_succ_apply, ih, rest_next, List.drop_tail]

lemma verbose_iterate_next (n : Nat) (c : Cursor) : (next^[n] c).verbose = c.verbose := by
  induction n generalizing c with
  | zero => rfl
  | succ n ih => rw [Function.iterate_succ_apply, ih, verbose_next]

/-- The character under a cursor stands before the others. -/
lemma rest_eq_cons {x : Char} (h : c.peek? = some x) : c.rest = x :: c.next.rest := by
  rw [rest_next]
  exact List.eq_cons_of_mem_head? h

/-! ### Characters of a kind -/

/-- Outside verbose mode a cursor takes the longest prefix of a kind. -/
lemma takeSpacedWhile_of_terse (p : Char → Bool) (h : c.verbose = false) :
    (c.takeSpacedWhile p).1.map Prod.fst = c.rest.takeWhile p ∧
      (c.takeSpacedWhile p).2.rest = c.rest.dropWhile p := by
  fun_induction takeSpacedWhile p c with
  | case1 c empty => simp [empty]
  | case2 c x rest under hx taken ih =>
    rw [nextSkip_of_terse h] at ih
    obtain ⟨chars, rest⟩ := ih (c.verbose_next.trans h)
    simp [taken, nextSkip_of_terse h, chars, rest, under, hx]
  | case3 c x rest under hx => simp [under, hx]

@[simp]
lemma verbose_takeSpacedWhile (p : Char → Bool) (c : Cursor) :
    (c.takeSpacedWhile p).2.verbose = c.verbose := by
  fun_induction takeSpacedWhile p c with
  | case1 c empty => rfl
  | case2 c x rest under hx taken ih => exact ih.trans c.verbose_nextSkip
  | case3 c x rest under hx => rfl

/-- Outside verbose mode a cursor takes a word of a kind when no more of the kind stands behind
it. -/
lemma takeSpacedWhile_append {p : Char → Bool} {word : List Char} {x : Char}
    (h : c.verbose = false) (under : c.rest = word ++ x :: rest) (all : ∀ y ∈ word, p y = true)
    (ends : p x = false) : (c.takeSpacedWhile p).1.map Prod.fst = word ∧
      (c.takeSpacedWhile p).2.rest = x :: rest := by
  have taken := takeSpacedWhile_of_terse p h
  rw [under, List.takeWhile_append_of_pos all, List.dropWhile_append_of_pos all] at taken
  simpa [ends] using taken

lemma takeWhile_chars (p : Char → Bool) (c : Cursor) :
    (c.takeWhile p).1.map Prod.fst = c.rest.takeWhile p :=
  (takeSpacedWhile_of_terse (c := { c with verbose := false }) p rfl).1

lemma takeWhile_rest (p : Char → Bool) (c : Cursor) :
    (c.takeWhile p).2.rest = c.rest.dropWhile p :=
  (takeSpacedWhile_of_terse (c := { c with verbose := false }) p rfl).2

/-- A cursor takes a word of a kind when no more of the kind stands behind it. -/
lemma takeWhile_append {p : Char → Bool} {word : List Char} {x : Char}
    (under : c.rest = word ++ x :: rest) (all : ∀ y ∈ word, p y = true) (ends : p x = false) :
    (c.takeWhile p).1.map Prod.fst = word ∧ (c.takeWhile p).2.rest = x :: rest :=
  takeSpacedWhile_append (c := { c with verbose := false }) rfl under all ends

/-- When a cursor does not take everything up to a character, the character is there. -/
lemma rest_eq_takeWhile_append {x : Char}
    (h : (c.takeWhile (· != x)).2.rest.isEmpty = false) :
    c.rest = c.rest.takeWhile (· != x) ++ x :: (c.takeWhile (· != x)).2.next.rest := by
  rw [takeWhile_rest] at h
  rw [rest_next, takeWhile_rest]
  obtain ⟨y, more, drop⟩ := List.exists_cons_of_ne_nil (List.isEmpty_eq_false_iff.1 h)
  have ends : y = x := by
    have head := List.head?_dropWhile_not (· != x) c.rest
    simpa [drop] using head
  conv_lhs => rw [← List.takeWhile_append_dropWhile (p := (· != x)) (l := c.rest), drop, ends]
  rw [drop, List.tail_cons]

/-! ### Words -/

/-- A word is under a cursor when it is a prefix of the characters there. -/
lemma after?_eq (word : List Char) (c : Cursor) :
    c.after? word = if word <+: c.rest then some (next^[word.length] c) else none := by
  induction word generalizing c with
  | nil => simp [after?]
  | cons x word ih =>
    rcases under : c.rest with _ | ⟨y, rest⟩
    · simp [after?, peek?, under]
    · simp only [after?, peek?, under, List.head?_cons, Option.some.injEq, ih, rest_next,
        List.tail_cons, List.cons_prefix_cons, List.length_cons, Function.iterate_succ_apply]
      rcases eq_or_ne y x with rfl | h <;> simp_all [eq_comm]

/-- Behind a word are the characters after it. -/
lemma rest_of_after? {word : List Char} (h : c.after? word = some d) :
    c.rest = word ++ d.rest := by
  rw [after?_eq] at h
  split_ifs at h with before
  obtain rfl := Option.some.inj h
  obtain ⟨more, eq⟩ := before
  rw [rest_iterate_next, ← eq, List.drop_left]

/-- A word that is under a cursor is found. -/
lemma exists_after? {word : List Char} (under : c.rest = word ++ rest) :
    ∃ d, c.after? word = some d ∧ d.rest = rest ∧ d.verbose = c.verbose := by
  refine ⟨next^[word.length] c, ?_, ?_, verbose_iterate_next _ _⟩
  · rw [after?_eq, under, if_pos (List.prefix_append word rest)]
  · rw [rest_iterate_next, under, List.drop_left]

/-- None of some words is found when none of them is under the cursor. -/
lemma afterAny?_eq_none {words : List String} (h : ∀ w ∈ words, ¬w.toList <+: c.rest) :
    c.afterAny? words = none := by
  rw [afterAny?, List.findSome?_eq_none_iff]
  intro w mem
  rw [after?_eq, if_neg (h w mem)]

end PatternAutomata.Cursor
