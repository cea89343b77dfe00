import PatternAutomata.Proofs.Quantifiers

/-!
# Texts that tell where their parts end

Tables are shown without quotes: characters stand between separators as they are, whatever they are,
and lists are written one member after the other. What was written can be told from the text all the
same, because a reader who goes from left to right always knows where the next part ends. A way of
writing has this property (`Delimits`) for the texts that may follow: what follows a number must not
begin with a digit, and what follows a list must not look like another member
(`Delimits.flatMap`, `Delimits.intercalate`). At the end of a text nothing follows, and so different
things are written differently (`Delimits.injective`).
-/

namespace PatternAutomata

/-- What is written can be told from a text that begins with it, and so can the rest of the text, if
the rest is one that may follow. -/
def Delimits {α : Type} (follows : List Char → Prop) (write : α → List Char) : Prop :=
  ∀ ⦃a b : α⦄ ⦃rest rest' : List Char⦄, follows rest → follows rest' →
    write a ++ rest = write b ++ rest' → a = b ∧ rest = rest'

namespace Delimits

variable {α : Type} {follows ends : List Char → Prop} {write : α → List Char}

/-- Different things are written differently if nothing needs to follow. -/
lemma injective (item : Delimits follows write) (last : follows []) : Function.Injective write :=
  fun _ _ same => (item last last (congrArg (· ++ []) same)).1

/-- A fixed text in front is skipped. -/
lemma prepend (item : Delimits follows write) (text : List Char) :
    Delimits follows fun a => text ++ write a := by
  intro a b rest rest' h h' same
  simp only [List.append_assoc, List.append_cancel_left_eq] at same
  exact item h h' same

/-- What stands in front of a list is followed by its first member, or by the rest. -/
lemma follows_flatMap (stop : ∀ rest, ends rest → follows rest)
    (next : ∀ a rest, follows (write a ++ rest)) (l : List α) {rest : List Char} (h : ends rest) :
    follows (l.flatMap write ++ rest) := by
  cases l with
  | nil => exact stop rest h
  | cons a l =>
    rw [List.flatMap_cons, List.append_assoc]
    exact next a _

/-- Members are told one after the other when any of them may follow another one, and the rest is
told from a further member. -/
lemma flatMap (item : Delimits follows write) (stop : ∀ rest, ends rest → follows rest)
    (next : ∀ a rest, follows (write a ++ rest)) (goes : ∀ a rest, ¬ ends (write a ++ rest)) :
    Delimits ends fun l : List α => l.flatMap write := by
  intro l m rest rest' h h' same
  change l.flatMap write ++ rest = m.flatMap write ++ rest' at same
  induction l generalizing m with
  | nil =>
    cases m with
    | nil => exact ⟨rfl, same⟩
    | cons b m =>
      rw [List.flatMap_nil, List.nil_append, List.flatMap_cons, List.append_assoc] at same
      rw [same] at h
      exact absurd h (goes b _)
  | cons a l ih =>
    cases m with
    | nil =>
      rw [List.flatMap_nil, List.nil_append, List.flatMap_cons, List.append_assoc] at same
      rw [← same] at h'
      exact absurd h' (goes a _)
    | cons b m =>
      simp only [List.flatMap_cons, List.append_assoc] at same
      obtain ⟨rfl, others⟩ :=
        item (follows_flatMap stop next l h) (follows_flatMap stop next m h') same
      obtain ⟨rfl, rfl⟩ := ih others
      exact ⟨rfl, rfl⟩

/-- Members with separators between them are the first member, and each other one behind a
separator. -/
lemma intercalate_map_cons (sep : List Char) (write : α → List Char) (a : α) (l : List α) :
    sep.intercalate ((a :: l).map write) = write a ++ l.flatMap fun b => sep ++ write b := by
  induction l generalizing a with
  | nil => simp
  | cons b l ih =>
    rw [List.map_cons, List.map_cons, List.intercalate_cons_cons, ← List.map_cons, ih,
      List.flatMap_cons, List.append_assoc, List.append_assoc]

/-- Members are told one after the other when separators may follow them, and the rest is told from
a further member and from a separator. -/
lemma intercalate {sep : List Char} (item : Delimits follows write)
    (stop : ∀ rest, ends rest → follows rest) (next : ∀ rest, follows (sep ++ rest))
    (goes : ∀ a rest, ¬ ends (write a ++ rest)) (parts : ∀ rest, ¬ ends (sep ++ rest)) :
    Delimits ends fun l : List α => sep.intercalate (l.map write) := by
  have next' : ∀ (a : α) rest, follows (sep ++ write a ++ rest) := by
    intro a rest
    rw [List.append_assoc]
    exact next _
  have parts' : ∀ (a : α) rest, ¬ ends (sep ++ write a ++ rest) := by
    intro a rest
    rw [List.append_assoc]
    exact parts _
  have others := (item.prepend sep).flatMap stop next' parts'
  rintro (_ | ⟨a, l⟩) (_ | ⟨b, m⟩) rest rest' h h' same
  · exact ⟨rfl, same⟩
  · simp only [intercalate_map_cons, List.append_assoc, List.map_nil, List.intercalate_nil,
      List.nil_append] at same
    rw [same] at h
    exact absurd h (goes b _)
  · simp only [intercalate_map_cons, List.append_assoc, List.map_nil, List.intercalate_nil,
      List.nil_append] at same
    rw [← same] at h'
    exact absurd h' (goes a _)
  · simp only [intercalate_map_cons, List.append_assoc] at same
    obtain ⟨rfl, rest_eq⟩ :=
      item (follows_flatMap stop next' l h) (follows_flatMap stop next' m h') same
    obtain ⟨rfl, rfl⟩ := others h h' rest_eq
    exact ⟨rfl, rfl⟩

end Delimits

/-! ### Numbers -/

/-- No digit comes first. -/
def NoDigitFirst (rest : List Char) : Prop := ∀ x ∈ rest.head?, x.isDigit = false

lemma noDigitFirst_cons {x : Char} {rest : List Char} (h : x.isDigit = false) :
    NoDigitFirst (x :: rest) := by
  rintro _ ⟨⟩
  exact h

/-- A number is told from a text if no digit follows it. -/
lemma delimits_number : Delimits NoDigitFirst fun n : ℕ => (toString n).toList := by
  have front : ∀ (n : ℕ) {rest}, NoDigitFirst rest →
      ((toString n).toList ++ rest).takeWhile Char.isDigit = (toString n).toList := by
    intro n rest h
    rw [List.takeWhile_append_of_pos fun x => isDigit_of_mem_toString]
    cases rest with
    | nil => simp
    | cons x rest =>
      have other : x.isDigit = false := h x rfl
      simp [other]
  intro n m rest rest' h h' same
  have digits : (toString n).toList = (toString m).toList := by
    rw [← front n h, ← front m h']
    exact congrArg (List.takeWhile Char.isDigit) same
  refine ⟨?_, ?_⟩
  · rw [← numeral_toString n, ← numeral_toString m, digits]
  · dsimp only at same
    rwa [digits, List.append_cancel_left_eq] at same

/-- Numbers with commas between them are told from a text if neither a digit nor a comma follows
them. -/
lemma delimits_numbers (sep : List Char) :
    Delimits (fun rest => NoDigitFirst rest ∧ rest.head? ≠ some ',')
      fun ns : List ℕ => (',' :: sep).intercalate (ns.map fun n => (toString n).toList) := by
  refine delimits_number.intercalate (fun _ h => h.1) (fun _ => noDigitFirst_cons (by decide))
    (fun n rest h => ?_) (fun _ h => h.2 rfl)
  obtain ⟨x, digits, digit, number⟩ := exists_toString_eq_cons n
  have other : x.isDigit = false := h.1 x (by rw [number]; rfl)
  rw [digit] at other
  cases other

end PatternAutomata
