import PatternAutomata.Proofs.Rendering

/-!
# Written quantifiers

A quantifier is read back from its text. A count is read from its decimal digits whatever it is
(`Cursor.exists_readCount`), and the three forms of a counted quantifier, with one count, with a
comma behind it and with two counts, are read as the bounds that they are written for
(`Cursor.exists_readRange`). So a quantifier behind a plain item is read as itself wherever it
stands (`Reader.exists_reads_text`), and no two kinds have one text.
-/

namespace PatternAutomata

/-! ### Counts -/

/-- The digits of a number write it. -/
lemma numeral_toString (n : ℕ) :
    numeral 10 (fun x => x.toNat - '0'.toNat) (toString n).toList = n := by
  rw [Nat.toString_eq_repr, Nat.toList_repr]
  exact Nat.ofDigitChars_ten_toDigits

/-- Numbers are written with digits. -/
lemma isDigit_of_mem_toString {n : ℕ} {x : Char} (h : x ∈ (toString n).toList) :
    x.isDigit = true := by
  rw [Nat.toString_eq_repr, Nat.toList_repr] at h
  exact Nat.isDigit_of_mem_toDigits (by decide) (by decide) h

/-- A number begins with a digit. -/
lemma exists_toString_eq_cons (n : ℕ) :
    ∃ x digits, x.isDigit = true ∧ (toString n).toList = x :: digits := by
  have some : (toString n).toList ≠ [] := by
    rw [Nat.toString_eq_repr, Nat.toList_repr]
    exact Nat.toDigits_ne_nil
  obtain ⟨x, digits, number⟩ := List.exists_cons_of_ne_nil some
  exact ⟨x, digits, isDigit_of_mem_toString (number ▸ List.mem_cons_self), number⟩

/-- No digit is blank. -/
lemma isBlank_of_isDigit {x : Char} (h : x.isDigit = true) : isBlank x = false := by
  have bounds : 48 ≤ x.toNat ∧ x.toNat ≤ 57 := by
    simpa [Char.isDigit, UInt32.le_iff_toNat_le] using h
  refine Bool.eq_false_iff.2 fun blank => ?_
  obtain ⟨range, mem, above, below⟩ := Ranges.contains_iff.1 blank
  have apart : ∀ range ∈ blankRanges, range.2 < 48 ∨ 57 < range.1 := by decide
  have := apart range mem
  omega

namespace Cursor

variable {c : Cursor} {rest : List Char} {x : Char}

/-- The digits of a count are read as the count. -/
lemma exists_readCount (n : UInt32) (terse : c.verbose = false)
    (under : c.rest = (toString n.toNat).toList ++ x :: rest) (ends : x.isDigit = false)
    (solid : isBlank x = false) :
    ∃ d, c.readCount = (.ok n, d) ∧ d.rest = x :: rest ∧ d.verbose = false := by
  obtain ⟨y, more, digit, number⟩ := exists_toString_eq_cons n.toNat
  -- no blanks stand before the digits
  have start : (c.takeWhile isBlank).2.rest = (toString n.toNat).toList ++ x :: rest := by
    have none : c.rest = [] ++ y :: (more ++ x :: rest) := by
      rw [under, number, List.cons_append, List.nil_append]
    have solid_digit := isBlank_of_isDigit digit
    rw [(takeWhile_append none (List.forall_mem_nil _) solid_digit).2, number, List.cons_append]
  obtain ⟨chars, behind⟩ := takeSpacedWhile_append (c := (c.takeWhile isBlank).2) terse start
    (fun y => isDigit_of_mem_toString) ends
  set digits := (c.takeWhile isBlank).2.takeSpacedWhile Char.isDigit with hdigits
  have some : digits.1.isEmpty = false := by
    rw [← List.isEmpty_map (f := Prod.fst), chars, number]
    rfl
  have count : numeral 10 (fun x => x.toNat - '0'.toNat) (digits.1.map Prod.fst) = n.toNat := by
    rw [chars, numeral_toString]
  have terse_end : digits.2.verbose = false := (verbose_takeSpacedWhile _ _).trans terse
  refine ⟨(digits.2.takeSpacedWhile isBlank).2, ?_, ?_, ?_⟩
  · simp only [readCount, ← hdigits, some, count, n.toNat_lt_size, UInt32.ofNat_toNat]
    rfl
  · have none : digits.2.rest = [] ++ x :: rest := behind
    exact (takeSpacedWhile_append terse_end none (List.forall_mem_nil _) solid).2
  · rw [verbose_takeSpacedWhile, terse_end]

/-- The three forms of the bounds of a counted quantifier are read as the bounds. -/
lemma exists_readRange (min : UInt32) (max : Option UInt32) (terse : c.verbose = false)
    (under : c.rest = (QuantifierKind.range min max).text.toList ++ rest) :
    ∃ d, c.readRange = .ok (.range min max, d) ∧ d.rest = '\x7d' :: rest ∧ d.verbose = false := by
  have begun := c.verbose_nextSkip.trans terse
  cases max with
  | none =>
    have inside : c.nextSkip.rest = (toString min.toNat).toList ++ ',' :: '\x7d' :: rest :=
      rest_nextSkip_of_terse (x := '\x7b') terse (by simp [under, QuantifierKind.text])
    obtain ⟨e, least, comma, terse_e⟩ := exists_readCount min begun inside rfl (by decide)
    have brace := rest_nextSkip_of_terse terse_e comma
    refine ⟨e.nextSkip, ?_, brace, e.verbose_nextSkip.trans terse_e⟩
    simp [readRange, inside, least, comma, brace, peek?]
  | some max =>
    by_cases same : min = max
    · have inside : c.nextSkip.rest = (toString min.toNat).toList ++ '\x7d' :: rest :=
        rest_nextSkip_of_terse (x := '\x7b') terse (by simp [under, QuantifierKind.text, same])
      obtain ⟨e, least, brace, terse_e⟩ := exists_readCount min begun inside rfl (by decide)
      refine ⟨e, ?_, brace, terse_e⟩
      simp [readRange, inside, least, brace, peek?, same]
    · have inside : c.nextSkip.rest =
          (toString min.toNat).toList ++ ',' :: ((toString max.toNat).toList ++ '\x7d' :: rest) :=
        rest_nextSkip_of_terse (x := '\x7b') terse (by simp [under, QuantifierKind.text, same])
      obtain ⟨e, least, comma, terse_e⟩ := exists_readCount min begun inside rfl (by decide)
      have behind := rest_nextSkip_of_terse terse_e comma
      obtain ⟨d, greatest, brace, terse_d⟩ :=
        exists_readCount max (e.verbose_nextSkip.trans terse_e) behind rfl (by decide)
      refine ⟨d, ?_, brace, terse_d⟩
      -- a digit stands behind the comma, so the second count is read
      obtain ⟨x, digits, digit, number⟩ := exists_toString_eq_cons max.toNat
      have bounded : e.nextSkip.peek? ≠ some '\x7d' := by
        rw [peek?, behind, number]
        rintro ⟨⟩
        cases digit
      have between : e.peek? = some ',' := by rw [peek?, comma, List.head?_cons]
      simp [readRange, inside, least, comma, between, behind, bounded, greatest, bind, Except.bind,
        pure, Except.pure]

/-- A counted quantifier whose bounds are in order is read, unless a question mark behind a greedy
one belongs to it. -/
lemma exists_readCounted {min : UInt32} {max : Option UInt32} {greedy : Bool}
    (ordered : (QuantifierKind.range min max).isOrdered = true) (terse : c.verbose = false)
    (under : c.rest = (QuantifierKind.range min max).text.toList ++ (lazyMark greedy ++ rest))
    (ends : greedy = true → rest.head? ≠ some '?') :
    ∃ d, c.readCounted = .ok (⟨.range min max, greedy⟩, d) ∧ d.rest = rest ∧
      d.verbose = false := by
  obtain ⟨d, range, brace, terse_d⟩ := exists_readRange min max terse under
  obtain ⟨e, mark, behind, verbose⟩ :=
    exists_readLazy greedy (rest_nextSkip_of_terse terse_d brace) ends
  refine ⟨e, ?_, behind, (verbose.trans d.verbose_nextSkip).trans terse_d⟩
  have closed : d.peek? = some '\x7d' := by rw [peek?, brace, List.head?_cons]
  simp [readCounted, range, closed, mark, ordered, bind, Except.bind, pure, Except.pure]

end Cursor

/-! ### Quantifiers -/

/-- The text of a counted quantifier begins with a brace. -/
lemma QuantifierKind.exists_text_range (min : UInt32) (max : Option UInt32) :
    ∃ inside, (range min max).text.toList = '\x7b' :: inside := by
  cases max with
  | none => simp [text]
  | some max =>
    rw [text]
    split_ifs <;> simp

namespace Reader

variable {r : Reader} {rest : List Char}

/-- The text of a quantifier behind a plain item is read as the quantifier, unless a question mark
behind a greedy one belongs to it. -/
lemma exists_reads_text {q : Quantifier} {t : Tree} {items : List Tree}
    (terse : r.cursor.verbose = false) (ordered : q.kind.isOrdered = true)
    (under : r.cursor.rest = q.kind.text.toList ++ (lazyMark q.greedy ++ rest))
    (ends : q.greedy = true → rest.head? ≠ some '?') (last : r.level.items = t :: items)
    (plain : t.isPlain = true) : ∃ d, r.Reads (r.repeated t items q d) rest := by
  cases supported : q.kind.isSupported with
  | true =>
    obtain ⟨x, text, written⟩ := QuantifierKind.exists_character supported
    rw [text] at under
    exact exists_reads_quantifier terse written under ends last plain
  | false =>
    obtain ⟨kind, greedy⟩ := q
    cases kind with
    | range min max =>
      obtain ⟨inside, brace⟩ := QuantifierKind.exists_text_range min max
      obtain ⟨d, read, behind, terse_d⟩ := Cursor.exists_readCounted ordered terse under ends
      have step := Step.counted (Level.operand?_of_isPlain last plain) read
      rw [brace, List.cons_append] at under
      exact ⟨d, step.reads terse under behind terse_d⟩
    | _ => cases supported

end Reader

/-- The letter `a` with a quantifier behind it, as a pattern. -/
def quantifiedLetter (q : Quantifier) : String :=
  "a" ++ q.kind.text ++ if q.greedy then "" else "?"

/-- The pattern of a quantified letter is a repetition of the letter. -/
lemma Expr.ofPattern_quantifiedLetter_eq {q : Quantifier} (ordered : q.kind.isOrdered = true) :
    ofPattern (quantifiedLetter q) = .ok (.root "" (.repetition q (.char .simple 'a'))) := by
  have start : (Reader.ofString (quantifiedLetter q)).cursor.rest =
      'a' :: (q.kind.text.toList ++ (lazyMark q.greedy ++ [])) := by
    change (quantifiedLetter q).toList = _
    cases lazily : q.greedy <;> simp [quantifiedLetter, lazyMark, lazily]
  obtain ⟨t, c, letter, leaf, plain, expr⟩ := Reader.exists_reads_literal rfl start (by decide)
  obtain ⟨d, repeated⟩ := Reader.exists_reads_text letter.terse ordered letter.rest nofun rfl plain
  have run := (letter.trans repeated).run_eq_ok
  have read := Tree.ofPattern_of_run run (Tree.tooDeep?_of_isLeaf leaf plain _)
  rw [ofPattern, read]
  change Except.ok (root t.flagText (.repetition q t.toExpr)) = _
  rw [expr, (t.supported_of_isPlain plain).1]

/-- There is no automaton of a counted repetition. -/
lemma Automaton.ofPattern_quantifiedLetter_range {min : UInt32} {max : Option UInt32}
    (ordered : (QuantifierKind.range min max).isOrdered = true) (greedy : Bool) :
    ofPattern (quantifiedLetter ⟨.range min max, greedy⟩) =
      .error (.unsupported (.countedRepetition (.range min max))) := by
  have offends :
      (Expr.root "" (.repetition ⟨.range min max, greedy⟩ (.char .simple 'a'))).offences =
        [.countedRepetition (.range min max)] := rfl
  rw [ofPattern, Expr.ofPattern_quantifiedLetter_eq ordered]
  exact ofExpr_eq_error offends

/-- Every quantifier whose bounds are in order is read back from its text, and a repetition with
counted bounds is reported with it. So the text of a kind is the text of no other kind. -/
theorem Expr.ofPattern_quantifiedLetter (kind : QuantifierKind) (ordered : kind.isOrdered = true) :
    (∀ greedy, ofPattern (quantifiedLetter ⟨kind, greedy⟩) =
      .ok (.root "" (.repetition ⟨kind, greedy⟩ (.char .simple 'a')))) ∧
    (∀ min max greedy, kind = .range min max →
      ∃ construct, Automaton.ofPattern (quantifiedLetter ⟨kind, greedy⟩) =
        .error (.unsupported construct) ∧ construct.text = "repetition " ++ kind.text) ∧
    ∀ other : QuantifierKind, other.isOrdered = true → other.text = kind.text → other = kind := by
  refine ⟨fun greedy => ofPattern_quantifiedLetter_eq ordered, ?_, ?_⟩
  · rintro min max greedy rfl
    exact ⟨_, Automaton.ofPattern_quantifiedLetter_range ordered greedy, rfl⟩
  · intro other ordered_other same
    have read := ofPattern_quantifiedLetter_eq (q := ⟨other, true⟩) ordered_other
    have pattern : quantifiedLetter ⟨other, true⟩ = quantifiedLetter ⟨kind, true⟩ := by
      rw [quantifiedLetter, quantifiedLetter, same]
    rw [pattern, ofPattern_quantifiedLetter_eq (q := ⟨kind, true⟩) ordered] at read
    cases read
    rfl

theorem Expr.ofPattern_quantifiedLetter_greatest :
    (QuantifierKind.range 2 (some 4294967295)).isOrdered = true ∧
    ofPattern "a\x7b2,4294967295\x7d?" = .ok
      (.root "" (.repetition ⟨.range 2 (some 4294967295), false⟩ (.char .simple 'a'))) ∧
    (∃ construct, Automaton.ofPattern "a\x7b2,4294967295\x7d?" = .error (.unsupported construct) ∧
      construct.text = "repetition \x7b2,4294967295\x7d") ∧
    ∀ other : QuantifierKind, other.isOrdered = true → other.text = "\x7b2,4294967295\x7d" →
      other = .range 2 (some 4294967295) := by
  have ordered : (QuantifierKind.range 2 (some 4294967295)).isOrdered = true := by decide
  have text : (QuantifierKind.range 2 (some 4294967295)).text = "\x7b2,4294967295\x7d" := by decide
  have pattern : quantifiedLetter ⟨.range 2 (some 4294967295), false⟩ =
      "a\x7b2,4294967295\x7d?" := by decide
  obtain ⟨read, refused, only⟩ := ofPattern_quantifiedLetter _ ordered
  rw [text] at refused only
  exact ⟨ordered, pattern ▸ read false, pattern ▸ refused _ _ false rfl, only⟩

end PatternAutomata
