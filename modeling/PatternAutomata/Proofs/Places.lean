import Mathlib.Data.List.Basic
import PatternAutomata.Pattern.Reader

/-!
# Where cursors stand

A cursor holds the characters that are still to be read and the place of the first of them. The two
fit together when the characters that have been passed lead from the start of the text to this place
(`Cursor.Within`). All readers keep this, whatever they pass over, so the places that the nodes of a
syntax tree hold are places of the pattern. Of two cursors within one text the one with less to read
stands at the greater offset (`Cursor.Within.offset_lt`).
-/

namespace PatternAutomata

namespace Position

/-- The place behind some characters at the start of a text. -/
def behind (passed : List Char) : Position := passed.foldl advance start

lemma behind_append_singleton (passed : List Char) (x : Char) :
    behind (passed ++ [x]) = (behind passed).advance x := by
  rw [behind, List.foldl_append]
  rfl

/-- Every character moves a place on. -/
lemma offset_lt_offset_advance (p : Position) (x : Char) : p.offset < (p.advance x).offset := by
  have := x.utf8Size_pos
  rw [offset_advance]
  omega

lemma offset_le_offset_foldl_advance (p : Position) (more : List Char) :
    p.offset ≤ (more.foldl advance p).offset := by
  induction more generalizing p with
  | nil => exact Nat.le_refl _
  | cons x more ih =>
    have first := offset_lt_offset_advance p x
    have others := ih (p.advance x)
    rw [List.foldl_cons]
    omega

end Position

namespace Cursor

variable {text : List Char} {c d start : Cursor}

/-- The cursor stands in a text, behind the characters of it that are not to be read any more. -/
def Within (text : List Char) (c : Cursor) : Prop :=
  ∃ passed, text = passed ++ c.rest ∧ c.pos = .behind passed

/-- Of two cursors within a text the one with less to read stands behind the characters between
them. -/
lemma Within.exists_between (hc : c.Within text) (hd : d.Within text)
    (h : d.rest.length ≤ c.rest.length) :
    ∃ more, c.rest = more ++ d.rest ∧ d.pos = more.foldl Position.advance c.pos := by
  obtain ⟨passed, rfl, hp⟩ := hc
  obtain ⟨passed', eq, hp'⟩ := hd
  obtain ⟨more, rfl, rest⟩ | ⟨more, rfl, rest⟩ := List.append_eq_append_iff.1 eq
  · exact ⟨more, rest, by rw [hp', hp, Position.behind, List.foldl_append, Position.behind]⟩
  · have none : more = [] := by
      rw [rest, List.length_append] at h
      exact List.eq_nil_of_length_eq_zero (by omega)
    exact ⟨[], by simp [rest, none], by simp [hp, hp', none]⟩

lemma Within.offset_le (hc : c.Within text) (hd : d.Within text)
    (h : d.rest.length ≤ c.rest.length) : c.pos.offset ≤ d.pos.offset := by
  obtain ⟨more, -, place⟩ := hc.exists_between hd h
  rw [place]
  exact Position.offset_le_offset_foldl_advance _ _

lemma Within.offset_lt (hc : c.Within text) (hd : d.Within text)
    (h : d.rest.length < c.rest.length) : c.pos.offset < d.pos.offset := by
  obtain ⟨more, rest, place⟩ := hc.exists_between hd (Nat.le_of_lt h)
  rw [place]
  rcases more with _ | ⟨x, more⟩
  · rw [rest] at h
    exact absurd h (Nat.lt_irrefl _)
  · have first := Position.offset_lt_offset_advance c.pos x
    have others := Position.offset_le_offset_foldl_advance (c.pos.advance x) more
    rw [List.foldl_cons]
    omega

lemma within_ofString (pattern : String) : (ofString pattern).Within pattern.toList :=
  ⟨[], rfl, rfl⟩

/-! ### Movements -/

/-- Whether blanks are skipped does not matter. -/
lemma Within.setVerbose (h : c.Within text) (verbose : Bool) :
    ({ c with verbose } : Cursor).Within text := h

@[grind ←]
lemma Within.next (h : c.Within text) : c.next.Within text := by
  obtain ⟨passed, eq, place⟩ := h
  unfold Cursor.next
  split
  · exact ⟨passed, eq, place⟩
  · rename_i x rest under
    refine ⟨passed ++ [x], ?_, ?_⟩
    · rw [eq, under, List.append_assoc, List.singleton_append]
    · rw [Position.behind_append_singleton, place]

/-- Passing over space keeps to the text. -/
lemma within_skipSpace (inComment : Bool) {rest : List Char} {p : Position} (verbose : Bool)
    (h : Within text ⟨rest, p, verbose⟩) :
    Within text ⟨(skipSpace inComment rest p).1, (skipSpace inComment rest p).2, verbose⟩ := by
  induction rest generalizing inComment p with
  | nil => exact h
  | cons x rest ih =>
    have next : Within text ⟨rest, p.advance x, verbose⟩ := h.next
    cases inComment with
    | true => exact ih _ next
    | false =>
      rw [skipSpace]
      split_ifs
      · exact ih _ next
      · exact ih _ next
      · exact h

@[grind ←]
lemma Within.skip (h : c.Within text) : c.skip.Within text := by
  unfold Cursor.skip
  split
  · exact within_skipSpace false c.verbose h
  · exact h

@[grind ←]
lemma Within.nextSkip (h : c.Within text) : c.nextSkip.Within text := h.next.skip

@[grind ←]
lemma Within.takeSpacedWhile (p : Char → Bool) (h : c.Within text) :
    (c.takeSpacedWhile p).2.Within text := by
  fun_induction Cursor.takeSpacedWhile p c with
  | case1 => exact h
  | case2 c x _ under _ taken ih => exact ih h.nextSkip
  | case3 => exact h

@[grind ←]
lemma Within.takeWhile (p : Char → Bool) (h : c.Within text) : (c.takeWhile p).2.Within text :=
  Within.takeSpacedWhile p (h.setVerbose false)

@[grind ←]
lemma Within.takeSpaced (n : Nat) (h : c.Within text) : (c.takeSpaced n).2.Within text := by
  induction n generalizing c with
  | zero => exact h
  | succ n ih =>
    unfold Cursor.takeSpaced
    split
    · exact h
    · exact ih h.nextSkip

/-! ### Escapes -/

variable {t : Tree}

@[grind <=]
lemma within_of_readHex {width : Nat} (hc : c.Within text)
    (h : readHex start width c = .ok (t, d)) : d.Within text := by
  unfold readHex readHexBraces readHexDigits refuse at h
  grind [→ stop_of_hexLiteral]

@[grind <=]
lemma within_of_readProperty (hc : c.Within text) (h : readProperty start c = .ok (t, d)) :
    d.Within text := by
  unfold readProperty refuse at h
  grind

@[grind <=]
lemma within_of_readBoundary (hc : c.Within text) (h : readBoundary start c = .ok (t, d)) :
    d.Within text := by
  unfold readBoundary assertionTo refuse at h
  grind

@[grind <=]
lemma within_of_readEscape (hc : c.Within text) (h : readEscape c = .ok (t, d)) :
    d.Within text := by
  unfold readEscape refuse at h
  grind

/-! ### Classes in brackets -/

@[grind <=]
lemma within_of_namedClass? (hc : c.Within text) (h : c.namedClass? = some d) :
    d.Within text := by
  unfold namedClass? at h
  grind

@[grind <=]
lemma within_of_openClass {k : OpenClass} (hc : c.Within text) (h : c.openClass = .ok (k, d)) :
    d.Within text := by
  unfold openClass refuse at h
  grind

@[grind <=]
lemma within_of_readClassItem (hc : c.Within text) (h : c.readClassItem = .ok (t, d)) :
    d.Within text := by
  unfold readClassItem refuse at h
  grind

@[grind <=]
lemma within_of_readClassMember {opening : Span} {item : ClassTree} (hc : c.Within text)
    (h : c.readClassMember opening = .ok (item, d)) : d.Within text := by
  simp only [readClassMember, refuse, bind, Except.bind, pure, Except.pure] at h
  grind

end Cursor

namespace ClassReader

open Cursor

variable {text : List Char} {r : ClassReader} {body : ClassTree} {d : Cursor}

/-- The cursor behind a step. -/
def Outcome.cursor : Outcome → Cursor
  | reading r => r.cursor
  | closed _ d => d

lemma within_of_step {outcome : Outcome} (hr : r.cursor.Within text)
    (h : r.step = .ok outcome) : outcome.cursor.Within text := by
  simp only [step, push, bind, Except.bind, pure, Except.pure] at h
  grind [Outcome.cursor]

@[grind <=]
lemma within_of_run (hr : r.cursor.Within text) (h : r.run = .ok (body, d)) : d.Within text := by
  fun_induction run r with
  | case1 r c hc => simp [refuse] at h
  | case2 => simp at h
  | case3 r c x rest hc body' d' hs =>
    cases h
    exact within_of_step hr.skip hs
  | case4 r c x rest hc s hs ih => exact ih (within_of_step hr.skip hs) h

end ClassReader

namespace Cursor

variable {text : List Char} {c d : Cursor} {t : Tree}

lemma within_of_readClass (hc : c.Within text) (h : c.readClass = .ok (t, d)) :
    d.Within text := by
  simp only [readClass, bind, Except.bind, pure, Except.pure] at h
  grind

/-! ### Quantifiers -/

@[grind ←]
lemma Within.readCount (hc : c.Within text) : c.readCount.2.Within text := by
  unfold Cursor.readCount
  grind

@[grind ←]
lemma Within.readLazy (hc : c.Within text) : c.readLazy.2.Within text := by
  unfold Cursor.readLazy
  grind

@[grind <=]
lemma within_of_readRange {kind : QuantifierKind} (hc : c.Within text)
    (h : c.readRange = .ok (kind, d)) : d.Within text := by
  simp only [readRange, refuse, bind, Except.bind, pure, Except.pure] at h
  grind

lemma within_of_readCounted {q : Quantifier} (hc : c.Within text)
    (h : c.readCounted = .ok (q, d)) : d.Within text := by
  simp only [readCounted, refuse, bind, Except.bind, pure, Except.pure] at h
  grind

lemma within_of_readUncounted {kind : QuantifierKind} {q : Quantifier} (hc : c.Within text)
    (h : c.readUncounted kind = (q, d)) : d.Within text := by
  cases h
  exact hc.next.readLazy

/-! ### Openings of groups -/

variable {names : List (String × Span)}

@[grind <=]
lemma within_of_readFlags {flags : String} (hc : c.Within text)
    (h : c.readFlags = .ok (flags, d)) : d.Within text := by
  unfold readFlags refuse at h
  grind

@[grind <=]
lemma within_of_readName {kind : GroupKind} (hc : c.Within text)
    (h : c.readName names = .ok (kind, d)) : d.Within text := by
  unfold readName refuse at h
  grind

lemma within_of_after? {word : List Char} (hc : c.Within text) (h : c.after? word = some d) :
    d.Within text := by
  induction word generalizing c with
  | nil =>
    cases h
    exact hc
  | cons x word ih =>
    rw [after?] at h
    split_ifs at h
    exact ih hc.next h

@[grind <=]
lemma within_of_afterAny? {words : List String} (hc : c.Within text)
    (h : c.afterAny? words = some d) : d.Within text := by
  obtain ⟨word, -, found⟩ := List.exists_of_findSome?_eq_some h
  exact within_of_after? hc found

lemma within_of_readOpening {opening : Opening} (hc : c.Within text)
    (h : c.readOpening names = .ok (opening, d)) : d.Within text := by
  simp only [readOpening, refuse, bind, Except.bind, pure, Except.pure] at h
  grind

end Cursor

end PatternAutomata
