import SyntaxTree.Proofs.Grammar.Mapping
import SyntaxTree.Proofs.Grammar.Phrase
import SyntaxTree.Proofs.Grammar.Suite

/-
# Match statements of one case

The words `match` and `case` are names elsewhere.  They begin a match statement where a subject
stands between `match` and a colon, and an indented line behind it begins with `case`.
-/

namespace SyntaxTree

open Parse

/-- The word that begins a match statement. -/
def Word.matchWord : Word := ⟨.identifier, SyntaxTree.text "match"⟩

/-- The word that begins a case. -/
def Word.caseWord : Word := ⟨.identifier, SyntaxTree.text "case"⟩

/-- A case and a lone `pass` in its block. -/
def caseWords (pattern : List Word) (width : Nat) : List Word :=
  Word.caseWord :: (pattern ++ [Word.colon, Word.newline, Word.indent width, Word.pass,
    Word.newline, Word.dedent])

/-- A match statement with a single case. -/
def matchWords (subject pattern : List Word) (outer inner : Nat) : List Word :=
  Word.matchWord :: (subject ++ Word.colon :: Word.newline :: Word.indent outer ::
    (caseWords pattern inner ++ [Word.dedent]))

namespace Parse

variable {c : Cursor} {ws more : List Word} (field : FieldReading)

/-! ## Cases -/

/-- The pattern of a case is read up to the colon. -/
theorem casePattern_run {p : Pattern} (h : ReadsPattern .whole ws p)
    (hc : c.words = ws ++ Word.colon :: more) :
    ∃ v c', casePattern field c = .ok v c' ∧ c'.words = Word.colon :: more ∧ v.bare = p := by
  have hn : ws.length < c.rest.length + 1 := by
    rw [← c.length_words, hc, List.length_append, List.length_cons]
    omega
  obtain ⟨v, c', hrun, hc', hv⟩ := h.starOr field hn hc rfl
  have hstar : v.isStar = false := by rw [← Pattern.isStar_bare, hv, h.notStar]
  have hlimit : limit c = .ok (c.rest.length + 1) c := rfl
  refine ⟨v, c', ?_, hc', hv⟩
  rw [casePattern, bind_ok hlimit, bind_ok (peek_run c), bind_ok hrun, bind_ok (at?_run hc' _),
    if_neg (by decide), hstar, if_neg Bool.false_ne_true]
  rfl

/-- A case without a guard is read with its block. -/
theorem matchCase_run {p : Pattern} (h : ReadsPattern .whole ws p) (read : Reading)
    (limit : Nat) {width : Nat} (hc : c.words = caseWords ws width ++ more) (hmore : more ≠ []) :
    ∃ v c', matchCase read field (statementsUpTo read field (limit + 1)) c = .ok v c' ∧
      c'.words = more ∧ v.bare = .mk .none p none [.new .pass] := by
  rw [caseWords, List.cons_append, List.append_assoc] at hc
  obtain ⟨pattern, c₁, hpattern, hc₁, hp⟩ :=
    casePattern_run field h (Cursor.words_advance hc (by simp))
  have hc₂ := Cursor.words_advance hc₁ (by simp)
  obtain ⟨s, c', hblock, hc', hs⟩ :=
    block_pass read field limit hc₂ hmore
  have hbody : blockAfter .casePattern read (statementsUpTo read field (limit + 1)) c₁ =
      .ok [s] c' := by
    rw [blockAfter, expectColon, bind_ok (expect_run (.colon .casePattern) hc₁ rfl), hblock]
  refine ⟨.mk (c'.spanFrom c.peek.start) pattern none [s], c', ?_, hc', by simp [hp, hs]⟩
  rw [matchCase, bind_ok (next_run c), bind_ok hpattern,
    bind_ok (accept_false (k := .kwIf) hc₁ (by rintro ⟨⟩))]
  exact (bind_ok hbody).trans rfl

/-- The cases of a match statement with a single one. -/
theorem matchCases_run {p : Pattern} (h : ReadsPattern .whole ws p) (read : Reading)
    (limit : Nat) {width : Nat} (hc : c.words = caseWords ws width ++ Word.dedent :: more) :
    ∃ v c', matchCases read field (statementsUpTo read field (limit + 1)) c = .ok [v] c' ∧
      c'.words = Word.dedent :: more ∧ v.bare = .mk .none p none [.new .pass] := by
  obtain ⟨v, c', hcase, hc', hv⟩ :=
    matchCase_run field h read limit hc (by simp)
  have hword : isWordAt 0 (text "case") c = .ok true c := isWordAt_run [] hc _
  refine ⟨v, c', ?_, hc', hv⟩
  refine untilEnd_one hc (by simp) nofun (endsBlock_run hc) ?_ (endsBlock_run hc')
  rw [bind_ok hword, if_pos rfl, bind_ok hcase]
  rfl

/-! ## Subjects -/

/-- The subject is read up to the colon, behind which a case stands. -/
theorem matchSubject_run {e : Expr} (h : Reads .expression ws e) {n outer : Nat}
    (hn : ws.length < n)
    (hc : c.words = Word.matchWord :: (ws ++ Word.colon :: Word.newline :: Word.indent outer ::
      Word.caseWord :: more)) :
    ∃ v c', matchSubject (readUpTo field n) c = .ok (some v) c' ∧
      c'.words = Word.colon :: Word.newline :: Word.indent outer :: Word.caseWord :: more ∧
      v.bare = e := by
  have hadvance := Cursor.words_advance hc (by simp)
  obtain ⟨v, c', hrun, hc', hv⟩ := h.starNamed field hn hadvance (by decide) (by decide)
  have hsubject : tupleOf startsNoItem (starNamed (readUpTo field n)) c.advance = .ok v c' := by
    rw [tupleOf, bind_ok hrun, bind_ok (at?_run hc' _), if_neg (by decide)]
    rfl
  have hnewline : kindAt 1 c' = .ok .newline c' := kindAt_run hc'
  have hindent : kindAt 2 c' = .ok .indent c' :=
    kindAt_eq [Word.colon, Word.newline] hc'
  have hcase : isWordAt 3 (text "case") c' = .ok true c' :=
    isWordAt_run [Word.colon, Word.newline, Word.indent outer] hc' _
  obtain ⟨w, tail, rfl, hw⟩ := h.begins
  refine ⟨v, c', ?_, hc', hv⟩
  rw [matchSubject, bind_ok (next_run c), bind_ok (startsStarred_run hadvance), hw.startsItem,
    if_pos rfl, bind_ok hsubject, bind_ok (at?_run hc' _), bind_ok hnewline, bind_ok hindent,
    bind_ok hcase]
  rfl

/-- A reading that finds something is not taken back. -/
theorem attempt_some {α : Type} {reading : Parse (Option α)} {a : α} {c' : Cursor}
    (h : reading { c with attempts := c.attempts + 1 } = .ok (some a) c') :
    attempt reading c = .ok (some a) { c' with attempts := c.attempts } := by
  rw [attempt, h]

/-! ## Statements -/

/-- A match statement is read with its only case. -/
theorem matchStmt_run (limit : Nat) {ps : List Word} {e : Expr} {p : Pattern}
    (h : Reads .expression ws e) (hp : ReadsPattern .whole ps p) {n outer inner : Nat}
    (hn : ws.length < n)
    (hc : c.words = matchWords ws ps outer inner ++ more) (hmore : more ≠ []) :
    ∃ v c', matchStmt (readUpTo field n) field
        (statementsUpTo (readUpTo field n) field (limit + 1)) c = .ok (some v) c' ∧
      c'.words = more ∧ v.bare = .new (.matchBlock e [.mk .none p none [.new .pass]]) := by
  simp only [matchWords, List.cons_append, List.append_assoc] at hc
  obtain ⟨subject, c₁, hsubject, hc₁, hv⟩ := matchSubject_run field
    (c := { c with attempts := c.attempts + 1 }) h hn hc
  have hattempt := attempt_some hsubject
  replace hc₁ : { c₁ with attempts := c.attempts }.words = _ := hc₁
  generalize { c₁ with attempts := c.attempts } = c₂ at hattempt hc₁
  have hcases := Cursor.words_advance (Cursor.words_advance (Cursor.words_advance hc₁ (by simp))
    (by simp)) (by simp)
  obtain ⟨v, c', hcase, hc', hv'⟩ :=
    matchCases_run field hp (readUpTo field n) limit hcases
  refine ⟨.node (c'.advance.spanFrom c.peek.start) (.matchBlock subject [v]), c'.advance, ?_,
    Cursor.words_advance hc' hmore, by simp [hv, hv', Stmt.new]⟩
  rw [matchStmt, bind_ok (peek_run c), bind_ok hattempt]
  dsimp only
  rw [bind_ok (next_run _), bind_ok (next_run _), bind_ok (next_run _), bind_ok hcase,
    bind_ok (accept_true (k := .dedent) hc' rfl)]
  rfl

end Parse

/-- A match statement of one case reads as a statement. -/
theorem ReadsStmt.matchBlock {ws ps : List Word} {e : Expr} {p : Pattern}
    (h : Reads .expression ws e) (hp : ReadsPattern .whole ps p) (outer inner : Nat) :
    ReadsStmt (matchWords ws ps outer inner)
      (.new (.matchBlock e [.mk .none p none [.new .pass]])) where
  begins := ⟨Word.matchWord, _, rfl, nofun, nofun⟩
  run := by
    intro field n c hn hc
    rw [matchWords, List.length_cons, List.length_append, List.length_cons] at hn
    obtain ⟨limit, rfl⟩ : ∃ limit, n = limit + 2 := ⟨n - 2, by omega⟩
    obtain ⟨v, c', hrun, hc', hv⟩ := Parse.matchStmt_run field limit h hp
      (n := limit + 2) (by omega) hc (by simp)
    have hword : isWordAt 0 (text "match") c = .ok true c := isWordAt_run [] hc _
    refine ⟨v, c', ?_, hc', hv⟩
    rw [statementsUpTo, statements, bind_ok (peek_run _), Cursor.kind_peek hc]
    refine (bind_ok hword).trans ?_
    rw [if_pos rfl, bind_ok hrun]
    rfl

end SyntaxTree
