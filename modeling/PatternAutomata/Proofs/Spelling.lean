import PatternAutomata.Proofs.Cursors
import PatternAutomata.Proofs.PlainTrees

/-!
# How the constructs of plain patterns are spelled

The reader of escapes accepts many, but only a backslash before a character that is neither a letter
nor a digit gives a plain tree (`Cursor.readEscape_eq_ok`, `Cursor.readEscape_of_isSuperfluous`).
The parenthesis of a group without flags can be followed by nothing, by a question mark and a colon,
or by the name of the group: `Opens` lists these openings, the reader of openings reads no others
(`Cursor.opens_of_readOpening`), and it reads all of them unless a name is repeated
(`Cursor.readOpening_of_opens`). A question mark behind the character of a quantifier makes it lazy
(`Cursor.readUncounted_eq`, `Cursor.exists_readUncounted`).
-/

namespace PatternAutomata

/-! ### Escapes -/

/-- Every character with a special meaning may stand behind a backslash. -/
lemma isSuperfluous_of_isSpecial {x : Char} (h : isSpecial x = true) : isSuperfluous x = true := by
  have all : specialCharacters.all isSuperfluous = true := by decide
  exact List.all_eq_true.1 all x (List.contains_iff_mem.1 h)

namespace Cursor

variable {c d start : Cursor} {t : Tree}

/-- The literal of a code point. -/
lemma literal_of_hexLiteral {stop : Cursor} {span : Span} {digits : List (Char × Span)}
    (h : hexLiteral start stop span digits = .ok (t, d)) :
    ∃ span value, t = .literal span .hex value := by
  unfold hexLiteral refuse at h
  grind

/-- An escape by a code point gives the literal of the code point. -/
lemma literal_of_readHex {width : Nat} (h : readHex start width c = .ok (t, d)) :
    ∃ span value, t = .literal span .hex value := by
  unfold readHex readHexBraces readHexDigits refuse at h
  grind [→ literal_of_hexLiteral]

/-- An escape of a property gives a class. -/
lemma classEscape_of_readProperty (h : readProperty start c = .ok (t, d)) :
    ∃ span text, t = .classEscape span text := by
  unfold readProperty refuse at h
  grind

/-- An escape of a word boundary gives an assertion. -/
lemma assertion_of_readBoundary (h : readBoundary start c = .ok (t, d)) :
    ∃ span text, t = .assertion span text := by
  unfold readBoundary assertionTo refuse at h
  grind

/-- An escape of one character gives that character, or it is not plain. -/
lemma shortEscape?_eq_some {span : Span} {text : String} {x : Char}
    (h : shortEscape? span text x = some t) : t.isLeaf = true ∧
      (t.isPlain = true → isSuperfluous x = true ∧ t.toExpr = .char .simple x) := by
  unfold shortEscape? at h
  split_ifs at h with _ _ special superfluous
  · cases h
    exact ⟨rfl, fun plain => by cases plain⟩
  · cases h
    exact ⟨rfl, fun plain => by cases plain⟩
  · cases h
    exact ⟨rfl, fun _ => ⟨isSuperfluous_of_isSpecial special, rfl⟩⟩
  · cases h
    exact ⟨rfl, fun _ => ⟨superfluous, rfl⟩⟩
  · obtain ⟨value, -, rfl⟩ := Option.map_eq_some_iff.1 h
    exact ⟨rfl, fun plain => by cases plain⟩

/-- An escape that is read gives the character behind the backslash, or it is not plain. -/
lemma readEscape_eq_ok (h : c.readEscape = .ok (t, d)) : t.isLeaf = true ∧ (t.isPlain = true →
    ∃ x, c.next.peek? = some x ∧ isSuperfluous x = true ∧ d = c.next.next ∧
      t.toExpr = .char .simple x) := by
  have cases : (∃ x, c.next.peek? = some x ∧ d = c.next.next ∧
      shortEscape? (c.spanTo d) (c.textTo d) x = some t) ∨
      (∃ span value, t = .literal span .hex value) ∨ (∃ span text, t = .classEscape span text) ∨
      ∃ span text, t = .assertion span text := by
    unfold readEscape refuse at h
    grind [→ literal_of_readHex, → classEscape_of_readProperty, → assertion_of_readBoundary]
  rcases cases with ⟨x, under, rfl, short⟩ | ⟨_, _, rfl⟩ | ⟨_, _, rfl⟩ | ⟨_, _, rfl⟩
  · obtain ⟨leaf, plain⟩ := shortEscape?_eq_some short
    exact ⟨leaf, fun h => ⟨x, under, (plain h).1, rfl, (plain h).2⟩⟩
  all_goals exact ⟨rfl, fun plain => by cases plain⟩

/-- A backslash before a character that may stand there gives that character. -/
lemma readEscape_of_isSuperfluous {x : Char} (under : c.next.peek? = some x)
    (h : isSuperfluous x = true) : ∃ t, c.readEscape = .ok (t, c.next.next) ∧ t.isPlain = true ∧
      t.toExpr = .char .simple x := by
  have ne : ∀ y, isSuperfluous y = false → x ≠ y := by
    rintro y no rfl
    rw [h] at no
    cases no
  have avoids : ∀ ys : List Char, ys.any isSuperfluous = false → ys.contains x = false := by
    intro ys no
    rw [List.any_eq_false] at no
    simpa using fun mem => no x mem h
  have digit : x.isDigit = false := by
    simp only [isSuperfluous, Char.isAlphanum, Bool.and_eq_true, Bool.not_eq_true',
      Bool.or_eq_false_iff] at h
    exact h.1.1.2.2
  have width : hexWidth? x = none := by
    unfold hexWidth?
    split
    · exact absurd rfl (ne 'x' rfl)
    · exact absurd rfl (ne 'u' rfl)
    · exact absurd rfl (ne 'U' rfl)
    · rfl
  have short : ∀ span text, ∃ t, shortEscape? span text x = some t ∧ t.isPlain = true ∧
      t.toExpr = .char .simple x := by
    intro span text
    unfold shortEscape?
    rw [avoids _ rfl, avoids _ rfl, if_neg Bool.false_ne_true, if_neg Bool.false_ne_true, if_pos h]
    split_ifs <;> exact ⟨_, rfl, rfl, rfl⟩
  obtain ⟨t, short, plain⟩ := short (c.spanTo c.next.next) (c.textTo c.next.next)
  refine ⟨t, ?_, plain⟩
  unfold readEscape
  simp only [under, width, digit, short, ne 'p' rfl, ne 'P' rfl, ne 'b' rfl]
  rfl

end Cursor

/-! ### Openings of groups -/

/-- Whether some characters may be the name of a group. -/
def IsGroupName : List Char → Prop
  | [] => False
  | x :: more => Cursor.isNameCharacter true x = true ∧
      ∀ y ∈ more, Cursor.isNameCharacter false y = true

/-- What may stand between the parenthesis and the inside of a group without flags, whether the
group captures, and under which name. -/
inductive Opens : List Char → Bool → Option String → Prop
  | numbered : Opens [] true none
  | plain : Opens ['?', ':'] false none
  | named {mark name : List Char} : mark = ['?', '<'] ∨ mark = ['?', 'P', '<'] → IsGroupName name →
      Opens (mark ++ name ++ ['>']) true (some (String.ofList name))

namespace Cursor

variable {c d : Cursor} {rest : List Char}

/-- A name has no bad characters when it may be the name of a group. -/
lemma badNameCharacter?_eq_none {name : List (Char × Span)} (h : name ≠ []) :
    badNameCharacter? name = none ↔ IsGroupName (name.map Prod.fst) := by
  rcases name with _ | ⟨⟨x, span⟩, more⟩
  · exact absurd rfl h
  · simp only [badNameCharacter?, List.map_cons, IsGroupName]
    split_ifs with first
    · simp [List.find?_eq_none, first]
    · simp [first]

/-- The bracket that ends a name is not in it. -/
lemma gt_notMem_of_isGroupName {name : List Char} (h : IsGroupName name) : '>' ∉ name := by
  rcases name with _ | ⟨x, more⟩
  · exact List.not_mem_nil
  · rintro (_ | ⟨_, mem⟩)
    · exact absurd h.1 (by decide +kernel)
    · exact absurd (h.2 _ mem) (by decide +kernel)

/-- What is read as a name may be one, ends with a bracket and is not taken. -/
lemma readName_eq_ok {names : List (String × Span)} {kind : GroupKind}
    (h : c.readName names = .ok (kind, d)) : ∃ name span, IsGroupName name ∧
      c.rest = name ++ '>' :: d.rest ∧ kind = .named (String.ofList name) span ∧
      ∀ other ∈ names, other.1 ≠ String.ofList name := by
  have chars := c.takeWhile_chars (· != '>')
  unfold readName at h
  simp only at h
  split at h
  · cases h
  · rename_i good
    split_ifs at h with unfinished empty
    · cases h
    · cases h
    · split at h <;> cases h
      rename_i fresh
      rw [badNameCharacter?_eq_none (by simpa using empty), chars] at good
      refine ⟨_, c.spanTo (c.takeWhile (· != '>')).2, good,
        rest_eq_takeWhile_append (by simpa using unfinished), ?_, ?_⟩
      · rw [textOf, chars]
      · rw [List.find?_eq_none] at fresh
        intro other mem
        simpa [textOf, chars] using fresh other mem

/-- Every name that is not taken is read. -/
lemma readName_of_isGroupName {names : List (String × Span)} {name rest : List Char}
    (good : IsGroupName name) (under : c.rest = name ++ '>' :: rest)
    (fresh : ∀ other ∈ names, other.1 ≠ String.ofList name) :
    ∃ span d, c.readName names = .ok (.named (String.ofList name) span, d) ∧ d.rest = rest ∧
      d.verbose = c.verbose := by
  have inside : ∀ x ∈ name, (x != '>') = true := by
    intro x mem
    rw [bne_iff_ne]
    rintro rfl
    exact gt_notMem_of_isGroupName good mem
  obtain ⟨chars, behind⟩ := takeWhile_append under inside rfl
  have some : (c.takeWhile (· != '>')).1 ≠ [] := by
    rintro empty
    rw [empty] at chars
    rw [← chars] at good
    exact good
  refine ⟨c.spanTo (c.takeWhile (· != '>')).2, (c.takeWhile (· != '>')).2.next, ?_, ?_,
    verbose_next _⟩
  · unfold readName
    simp only
    rw [(badNameCharacter?_eq_none some).2 (chars ▸ good), textOf, chars, behind,
      List.find?_eq_none.2]
    · simp [some]
    · simpa using fresh
  · rw [rest_next, behind, List.tail_cons]

/-- No flags stand before a colon. -/
lemma readFlags_of_colon (under : c.rest = ':' :: rest) :
    ∃ d, c.readFlags = .ok ("", d) ∧ d.rest = ':' :: rest ∧ d.verbose = c.verbose := by
  have none : c.rest = [] ++ ':' :: rest := under
  obtain ⟨chars, behind⟩ :=
    takeWhile_append (p := fun x => x != ':' && x != ')') none (List.forall_mem_nil _) rfl
  rw [List.map_eq_nil_iff] at chars
  refine ⟨(c.takeWhile fun x => x != ':' && x != ')').2, ?_, behind, rfl⟩
  unfold readFlags
  simp [chars, behind, flagFault?, textOf]

/-- When no flags are read, a colon that follows is the next character. -/
lemma colon_of_readFlags (h : c.readFlags = .ok ("", d)) (colon : d.peek? = some ':') :
    c.rest = ':' :: d.next.rest := by
  unfold readFlags at h
  simp only at h
  split at h
  · cases h
  · split_ifs at h
    · cases h
    · split at h
      · cases h
      · obtain ⟨empty, rfl⟩ := Prod.mk.injEq .. ▸ Except.ok.inj h
        have none : c.rest.takeWhile (fun x => x != ':' && x != ')') = [] := by
          rw [← takeWhile_chars]
          simpa [textOf] using empty
        have all := List.takeWhile_append_dropWhile (p := fun x => x != ':' && x != ')')
          (l := c.rest)
        rw [none, ← takeWhile_rest, List.nil_append] at all
        rw [← all]
        exact rest_eq_cons colon

/-- What stands between the opening parenthesis and the inside of a group without flags is one of
the openings, and its name is not taken. -/
lemma opens_of_readOpening {names : List (String × Span)} {kind : GroupKind} {more : List Char}
    (terse : c.verbose = false) (under : c.rest = '(' :: more)
    (h : c.readOpening names = .ok (.group kind, d)) (flagless : kind.isFlagless = true) :
    ∃ text, Opens text kind.captures (kind.name?.map Prod.fst) ∧ more = text ++ d.rest ∧
      (text = [] → d.rest.head? ≠ some '?') ∧
        ∀ n ∈ kind.name?.map Prod.fst, ∀ other ∈ names, other.1 ≠ n := by
  have behind : c.nextSkip.rest = more := by rw [nextSkip_of_terse terse, rest_next, under]; rfl
  simp only [readOpening, bind, Except.bind, pure, Except.pure] at h
  split at h
  · cases h
  · split at h
    · rename_i e word
      obtain ⟨w, mem, after⟩ := List.exists_of_findSome?_eq_some word
      have marked := rest_of_after? after
      rcases read : e.readName names with refusal | ⟨named, f⟩
      · rw [read] at h
        cases h
      · rw [read] at h
        cases h
        obtain ⟨name, span, good, rest, rfl, fresh⟩ := readName_eq_ok read
        refine ⟨w.toList ++ name ++ ['>'], .named ?_ good, ?_, by simp, ?_⟩
        · rcases List.mem_pair.1 mem with rfl | rfl
          · exact .inr rfl
          · exact .inl rfl
        · rw [← behind, marked, rest]
          simp
        · rintro n ⟨⟩
          exact fresh
    · split_ifs at h with mark unfinished
      · cases h
      · rcases read : c.nextSkip.next.readFlags with refusal | ⟨flags, f⟩
        · rw [read] at h
          cases h
        · rw [read] at h
          simp only at h
          split_ifs at h with colon empty
          · cases h
            obtain rfl : flags = "" := by simpa [GroupKind.isFlagless] using flagless
            refine ⟨['?', ':'], .plain, ?_, by simp, fun n mem => by cases mem⟩
            rw [← behind, rest_eq_cons mark, colon_of_readFlags read colon]
            rfl
          · cases h
          · cases h
      · cases h
        exact ⟨[], .numbered, behind.symm, fun _ => mark, fun n mem => by cases mem⟩

/-- Without a question mark behind it a parenthesis opens a numbered group. -/
lemma readOpening_of_bare (names : List (String × Span)) (bare : c.nextSkip.peek? ≠ some '?') :
    c.readOpening names = .ok (.group .numbered, c.nextSkip) := by
  have unmarked : ∀ word : List Char, ¬('?' :: word <+: c.nextSkip.rest) := by
    rintro word ⟨more, eq⟩
    rw [peek?, ← eq] at bare
    exact bare rfl
  have look : c.nextSkip.afterAny? ["?=", "?!", "?<=", "?<!"] = none :=
    afterAny?_eq_none (by simp [unmarked])
  have mark : c.nextSkip.afterAny? ["?P<", "?<"] = none := afterAny?_eq_none (by simp [unmarked])
  unfold readOpening
  simp only [look, mark, bare]
  rfl

/-- With a question mark and a colon behind it a parenthesis opens a group that does not capture. -/
lemma readOpening_of_colon (names : List (String × Span))
    (under : c.nextSkip.rest = '?' :: ':' :: rest) :
    ∃ d, c.readOpening names = .ok (.group (.plain ""), d) ∧ d.rest = rest ∧
      d.verbose = c.nextSkip.verbose := by
  have look : c.nextSkip.afterAny? ["?=", "?!", "?<=", "?<!"] = none :=
    afterAny?_eq_none (by simp [under])
  have mark : c.nextSkip.afterAny? ["?P<", "?<"] = none := afterAny?_eq_none (by simp [under])
  have question : c.nextSkip.peek? = some '?' := by rw [peek?, under, List.head?_cons]
  have inside : c.nextSkip.next.rest = ':' :: rest := by rw [rest_next, under, List.tail_cons]
  obtain ⟨d, read, behind, verbose⟩ := readFlags_of_colon inside
  have colon : d.peek? = some ':' := by rw [peek?, behind, List.head?_cons]
  refine ⟨d.next, ?_, ?_, ?_⟩
  · unfold readOpening
    simp [look, mark, question, under, read, colon, bind, Except.bind, pure, Except.pure]
  · rw [rest_next, behind, List.tail_cons]
  · rw [verbose_next, verbose, verbose_next]

/-- With the mark of a name, the name and a bracket behind it a parenthesis opens a group of that
name, unless the name is taken. -/
lemma readOpening_of_isGroupName {names : List (String × Span)} {mark name : List Char}
    (marked : mark = ['?', '<'] ∨ mark = ['?', 'P', '<']) (good : IsGroupName name)
    (under : c.nextSkip.rest = mark ++ (name ++ '>' :: rest))
    (fresh : ∀ other ∈ names, other.1 ≠ String.ofList name) :
    ∃ span d, c.readOpening names = .ok (.group (.named (String.ofList name) span), d) ∧
      d.rest = rest ∧ d.verbose = c.nextSkip.verbose := by
  have look : c.nextSkip.afterAny? ["?=", "?!", "?<=", "?<!"] = none := by
    refine afterAny?_eq_none ?_
    rcases name with _ | ⟨x, more⟩
    · exact good.elim
    · have equal : '=' ≠ x := by
        rintro rfl
        exact absurd good.1 (by decide +kernel)
      have bang : '!' ≠ x := by
        rintro rfl
        exact absurd good.1 (by decide +kernel)
      rcases marked with rfl | rfl <;> simp [under, equal, bang]
  obtain ⟨e, after, inside, verbose⟩ := exists_after? under
  have found : c.nextSkip.afterAny? ["?P<", "?<"] = some e := by
    rcases marked with rfl | rfl
    · have other : c.nextSkip.after? "?P<".toList = none := by
        rw [after?_eq, if_neg (by simp [under])]
      have this : c.nextSkip.after? "?<".toList = some e := after
      simp only [afterAny?, List.findSome?_cons, other, this]
    · have this : c.nextSkip.after? "?P<".toList = some e := after
      simp only [afterAny?, List.findSome?_cons, this]
  obtain ⟨span, d, read, behind, verbose'⟩ := readName_of_isGroupName good inside fresh
  refine ⟨span, d, ?_, behind, verbose'.trans verbose⟩
  unfold readOpening
  simp only [look, found, read]
  rfl

/-- Every opening of a group without flags is read, unless its name is taken. -/
lemma readOpening_of_opens {names : List (String × Span)} {text : List Char} {captures : Bool}
    {name? : Option String} (opens : Opens text captures name?) (terse : c.verbose = false)
    (under : c.rest = '(' :: (text ++ rest)) (bare : text = [] → rest.head? ≠ some '?')
    (fresh : ∀ n ∈ name?, ∀ other ∈ names, other.1 ≠ n) :
    ∃ kind d, c.readOpening names = .ok (.group kind, d) ∧ d.rest = rest ∧ d.verbose = false ∧
      kind.captures = captures ∧ kind.name?.map Prod.fst = name? ∧ kind.isFlagless = true := by
  have inside := rest_nextSkip_of_terse terse under
  have terse' := c.verbose_nextSkip.trans terse
  cases opens with
  | numbered =>
    have unmarked : c.nextSkip.peek? ≠ some '?' := by
      rw [peek?, inside]
      exact bare rfl
    exact ⟨_, _, readOpening_of_bare names unmarked, inside, terse', rfl, rfl, rfl⟩
  | plain =>
    obtain ⟨d, read, behind, verbose⟩ := readOpening_of_colon names inside
    exact ⟨_, d, read, behind, verbose.trans terse', rfl, rfl, rfl⟩
  | @named mark name marked good =>
    rw [List.append_assoc, List.append_assoc, List.singleton_append] at inside
    obtain ⟨span, d, read, behind, verbose⟩ :=
      readOpening_of_isGroupName marked good inside (fresh _ rfl)
    exact ⟨_, d, read, behind, verbose.trans terse', rfl, rfl, rfl⟩

end Cursor

/-- A group without flags does not change whether blanks are skipped. -/
lemma Opening.verbose?_of_isFlagless {kind : GroupKind} (h : kind.isFlagless = true) :
    (Opening.group kind).verbose? = none := by
  cases kind with
  | plain flags =>
    obtain rfl : flags = "" := by simpa [GroupKind.isFlagless] using h
    rfl
  | _ => rfl

/-! ### Quantifiers -/

/-- What stands behind the character of a quantifier. -/
def lazyMark (greedy : Bool) : List Char := if greedy then [] else ['?']

namespace Cursor

/-- A quantifier of one character is lazy when a question mark stands behind its character. -/
lemma readUncounted_eq {c d : Cursor} {kind : QuantifierKind} {q : Quantifier}
    (h : c.readUncounted kind = (q, d)) : q.kind = kind ∧
      c.next.rest = lazyMark q.greedy ++ d.rest ∧ (q.greedy = true → d.rest.head? ≠ some '?') ∧
        d.verbose = c.verbose := by
  unfold readUncounted readLazy at h
  split_ifs at h with mark <;> cases h
  · exact ⟨rfl, rest_eq_cons mark, by simp, by rw [verbose_next, verbose_next]⟩
  · exact ⟨rfl, rfl, fun _ => mark, c.verbose_next⟩

/-- A question mark is read exactly behind a lazy quantifier, unless one that stands behind a greedy
quantifier belongs to it. -/
lemma exists_readLazy {c : Cursor} {rest : List Char} (greedy : Bool)
    (under : c.rest = lazyMark greedy ++ rest) (ends : greedy = true → rest.head? ≠ some '?') :
    ∃ d, c.readLazy = (!greedy, d) ∧ d.rest = rest ∧ d.verbose = c.verbose := by
  cases greedy with
  | true =>
    have unmarked : c.peek? ≠ some '?' := by
      rw [peek?, under]
      exact ends rfl
    exact ⟨c, if_neg unmarked, under, rfl⟩
  | false =>
    have marked : c.peek? = some '?' := by
      rw [peek?, under]
      rfl
    refine ⟨c.next, if_pos marked, ?_, c.verbose_next⟩
    rw [rest_next, under]
    rfl

/-- Every quantifier of one character is read, unless a question mark behind a greedy one belongs to
it. -/
lemma exists_readUncounted {c : Cursor} {rest : List Char} (q : Quantifier)
    (under : c.next.rest = lazyMark q.greedy ++ rest)
    (ends : q.greedy = true → rest.head? ≠ some '?') :
    ∃ d, c.readUncounted q.kind = (q, d) ∧ d.rest = rest ∧ d.verbose = c.verbose := by
  obtain ⟨d, read, behind, verbose⟩ := exists_readLazy q.greedy under ends
  refine ⟨d, ?_, behind, verbose.trans c.verbose_next⟩
  rw [readUncounted, read, Bool.not_not]

/-- A counted quantifier is not supported. -/
lemma isSupported_of_readCounted {c d : Cursor} {q : Quantifier}
    (h : c.readCounted = .ok (q, d)) : q.kind.isSupported = false := by
  have range : ∀ {kind : QuantifierKind} {e : Cursor}, c.readRange = .ok (kind, e) →
      kind.isSupported = false := by
    intro kind e h
    simp only [readRange, refuse, bind, Except.bind, pure, Except.pure] at h
    grind [QuantifierKind.isSupported]
  simp only [readCounted, refuse, bind, Except.bind, pure, Except.pure] at h
  grind

end Cursor

end PatternAutomata
