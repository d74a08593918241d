import SyntaxTree.Proofs.Grammar.Match

/-
# Words of statements

The words of a statement are read alike in front of everything that does not carry it on: a compound
statement goes on at `elif`, `else`, `except` and `finally`.  Statements one after the other are the
body of a block or of a module, and blocks stand behind the headers of compound statements.
-/

namespace SyntaxTree

open Parse

/-! ## Words -/

namespace Word

/-- The word in front of another condition. -/
def elifWord : Word := ⟨.kwElif, SyntaxTree.text "elif"⟩

/-- The word in front of an alternative. -/
def elseWord : Word := ⟨.kwElse, SyntaxTree.text "else"⟩

/-- The word in front of a handler. -/
def exceptWord : Word := ⟨.kwExcept, SyntaxTree.text "except"⟩

/-- The word in front of a final block. -/
def finallyWord : Word := ⟨.kwFinally, SyntaxTree.text "finally"⟩

/-- The word in front of a second name. -/
def asWord : Word := ⟨.kwAs, SyntaxTree.text "as"⟩

/-- A star. -/
def star : Word := ⟨.star, SyntaxTree.text "*"⟩

def openParen : Word := ⟨.openParen, SyntaxTree.text "("⟩

def closeParen : Word := ⟨.closeParen, SyntaxTree.text ")"⟩

end Word

namespace TokenKind

/-- A word with which a compound statement goes on. -/
def resumes : TokenKind → Bool
  | .kwElif | .kwElse | .kwExcept | .kwFinally => true
  | _ => false

/-- A word that no statement begins with: it carries one on, or stands between statements. -/
def endsStmt : TokenKind → Bool
  | .newline | .dedent | .endOfInput => true
  | kind => kind.resumes

/-- A word that can be a statement of its own. -/
def standsAlone : TokenKind → Bool
  | .kwPass | .kwBreak | .kwContinue | .kwReturn | .identifier => true
  | _ => false

theorem ne_of_resumes {kind : TokenKind} (h : kind.resumes = false) :
    kind ≠ .kwElif ∧ kind ≠ .kwElse ∧ kind ≠ .kwExcept ∧ kind ≠ .kwFinally := by
  revert h
  cases kind <;> decide

theorem ne_of_endsStmt {kind : TokenKind} (h : kind.endsStmt = false) :
    kind.resumes = false ∧ kind ≠ .newline ∧ kind ≠ .dedent ∧ kind ≠ .endOfInput := by
  revert h
  cases kind <;> decide

end TokenKind

/-- The words of a block behind its header. -/
def blockWords (width : Nat) (ws : List Word) : List Word :=
  Word.colon :: Word.newline :: Word.indent width :: (ws ++ [Word.dedent])

/-! ## Readings of statements -/

/-- Words that read as one statement, whatever else follows that does not carry it on. -/
structure ReadsAs (ws : List Word) (s : Stmt) : Prop where
  begins : ∃ w tail, ws = w :: tail ∧ w.kind.endsStmt = false
  run : ∀ (field : FieldReading) (n limit : Nat) {c : Cursor} {f : Word} {more : List Word},
    ws.length < min n limit → c.words = ws ++ f :: more → f.kind.resumes = false →
    ∃ v c', statementsUpTo (readUpTo field n) field limit c = .ok [v] c' ∧ c'.words = f :: more ∧
      v.bare = s

/-- Words that read as statements one after the other. -/
inductive ReadsAll : List Word → List Stmt → Prop where
  | nil : ReadsAll [] []
  | cons {ws ws' : List Word} {s : Stmt} {ss : List Stmt} (h : ReadsAs ws s)
    (hrest : ReadsAll ws' ss) :
    ReadsAll (ws ++ ws') (s :: ss)

theorem Stmt.bareAll_append (ss ss' : List Stmt) :
    Stmt.bareAll (ss ++ ss') = Stmt.bareAll ss ++ Stmt.bareAll ss' := by
  induction ss with
  | nil => rfl
  | cons s ss ih => rw [List.cons_append, Stmt.bareAll, ih, Stmt.bareAll, List.cons_append]

namespace ReadsAll

variable {ws : List Word} {ss : List Stmt}

/-- The words of each of the statements. -/
theorem exists_pieces (h : ReadsAll ws ss) : ∃ pieces : List (List Word × Stmt),
    ws = pieces.flatMap Prod.fst ∧ ss = pieces.map Prod.snd ∧ ∀ p ∈ pieces, ReadsAs p.1 p.2 := by
  induction h with
  | nil => exact ⟨[], rfl, rfl, List.forall_mem_nil _⟩
  | @cons ws ws' s ss h _ ih =>
    obtain ⟨pieces, rfl, rfl, hpieces⟩ := ih
    exact ⟨(ws, s) :: pieces, rfl, rfl, List.forall_mem_cons.mpr ⟨h, hpieces⟩⟩

/-- Statements are read one by one up to the word where they end. -/
theorem untilEnd_run (h : ReadsAll ws ss) {ends : Parse Bool} {isEnd : TokenKind → Bool}
    (hends : ∀ {c : Cursor} {w : Word} {ws : List Word}, c.words = w :: ws →
      ends c = .ok (isEnd w.kind) c)
    (hbegins : ∀ kind : TokenKind, kind.endsStmt = false → isEnd kind = false)
    (field : FieldReading) (n limit : Nat) (hn : ws.length < min n limit) {c : Cursor} {f : Word}
    {more : List Word} (hc : c.words = ws ++ f :: more) (hf : isEnd f.kind)
    (hresumes : f.kind.resumes = false) :
    ∃ vs c', untilEnd ends (statementsUpTo (readUpTo field n) field limit) c = .ok vs c' ∧
      c'.words = f :: more ∧ Stmt.bareAll vs = ss := by
  obtain ⟨pieces, rfl, rfl, hpieces⟩ := h.exists_pieces
  -- The step of the loop, which tries the end and a blank line before it reads a statement.
  let item := statementsUpTo (readUpTo field n) field limit
  let step : Parse (Option (List Stmt)) := do
    if ← ends then return none
    else if ← accept .newline then return some []
    else return some (← item)
  -- What may stand behind a statement here: another one or the end.
  let follows (kind : TokenKind) : Prop :=
    kind.resumes = false ∧ (kind.endsStmt = false ∨ isEnd kind)
  have hitems : ∀ p ∈ pieces,
      ReadsItem step follows p.1 fun vs => Stmt.bareAll vs = [p.2] := by
    intro p hp
    obtain ⟨w, tail, hws, hw⟩ := (hpieces p hp).begins
    obtain ⟨hgoesOn, hnewline, -⟩ := TokenKind.ne_of_endsStmt hw
    refine ⟨⟨w, tail, hws, hgoesOn, .inl hw⟩, fun c f more hc hf => ?_⟩
    have hlength : p.1.length < min n limit :=
      Nat.lt_of_le_of_lt (List.sublist_flatten_of_mem (List.mem_map_of_mem hp)).length_le
        (List.flatMap_def ▸ hn)
    obtain ⟨v, c', hrun, hc', hv⟩ := (hpieces p hp).run field n limit hlength hc hf.1
    rw [hws, List.cons_append] at hc
    refine ⟨[v], c', ?_, hc', by rw [Stmt.bareAll, hv]; rfl⟩
    dsimp only [step]
    rw [bind_ok (hends hc), hbegins _ hw, if_neg Bool.false_ne_true,
      bind_ok (accept_false hc hnewline), if_neg Bool.false_ne_true, bind_ok hrun]
    rfl
  have hstop : ∀ c : Cursor, c.words = f :: more →
      ∃ c', step c = .ok none c' ∧ c'.words = f :: more := by
    intro c hc
    refine ⟨c, ?_, hc⟩
    dsimp only [step]
    rw [bind_ok (hends hc), if_pos hf]
    rfl
  obtain ⟨vss, c', hrun, hc', hvss⟩ := collect_items hitems ⟨hresumes, .inr hf⟩ hstop hc
  refine ⟨vss.flatten, c', ?_, hc', ?_⟩
  · rw [untilEnd, bind_ok hrun]
    rfl
  · clear * - hvss
    induction hvss with
    | nil => rfl
    | cons hvs _ ih => rw [List.flatten_cons, Stmt.bareAll_append, hvs, ih]; rfl

/-- Statements in a block are read behind its header. -/
theorem blockAfter_run (h : ReadsAll ws ss) (field : FieldReading) (n limit : Nat) (header : Header)
    (hn : ws.length < min n limit) {c : Cursor} {width : Nat} {f : Word}
    {more : List Word} (hc : c.words = blockWords width ws ++ f :: more) :
    ∃ vs c', blockAfter header (readUpTo field n)
        (statementsUpTo (readUpTo field n) field limit) c =
        .ok vs c' ∧ c'.words = f :: more ∧ Stmt.bareAll vs = ss := by
  rw [blockWords, List.cons_append, List.cons_append, List.cons_append, List.append_assoc] at hc
  have hnewline := Cursor.words_advance hc (by simp)
  have hindent := Cursor.words_advance hnewline (by simp)
  have hbody := Cursor.words_advance hindent (by simp)
  have hbegins : ∀ kind : TokenKind, kind.endsStmt = false →
      (kind == .dedent || kind == .endOfInput) = false := by
    intro kind hkind
    obtain ⟨-, -, hdedent, hend⟩ := TokenKind.ne_of_endsStmt hkind
    simp [hdedent, hend]
  obtain ⟨vs, c', hrun, hc', hvs⟩ :=
    h.untilEnd_run endsBlock_run hbegins field n limit hn hbody rfl rfl
  refine ⟨vs, c'.advance, ?_, Cursor.words_advance hc' (by simp), hvs⟩
  rw [blockAfter, expectColon, bind_ok (expect_run (.colon header) hc rfl), block,
    bind_ok (accept_true (k := .newline) hnewline rfl), if_pos rfl, bind_ok (at?_run hindent _),
    if_pos (by rfl), bind_ok (next_run _), bind_ok hrun,
    bind_ok (accept_true (k := .dedent) hc' rfl)]
  rfl

/-- A module is read from the words of its statements. -/
theorem ofSource [Unicode.CharacterNames] (h : ReadsAll ws ss) {source : Bytes}
    (hwords : HasWords (tokenize false source) (ws ++ [Word.final])) :
    ∃ m, Module.ofSource .exec source = .ok m ∧
      m.bare = { (Module.empty .exec).bare with body := ss } := by
  refine Module.exists_ofSource (fun field n c hn hc => ?_) hwords
  have hbegins : ∀ kind : TokenKind, kind.endsStmt = false → (kind == .endOfInput) = false := by
    intro kind hkind
    simpa using (TokenKind.ne_of_endsStmt hkind).2.2.2
  obtain ⟨vs, c', hrun, -, hvs⟩ := h.untilEnd_run (fun hc => at?_run hc .endOfInput) hbegins
    field n n (by omega) hc rfl rfl
  exact ⟨vs, c', hrun, hvs⟩

end ReadsAll

/-! ## Simple statements -/

namespace Parse

variable {read : Reading} {field : FieldReading} {inner : Parse (List Stmt)} {c c' : Cursor}
  {w : Word} {more : List Word} {v : Stmt}

/-- A simple statement alone on its line. -/
theorem line_run (hrun : simpleStmt read c = .ok v c') (hc' : c'.words = Word.newline :: more) :
    line read c = .ok [v] c'.advance := by
  have hnone : (do
      if ← accept .semicolon then
        if ← endsLine then return none else return some (← simpleStmt read)
      else return none : Parse (Option Stmt)) c' = .ok none c' := by
    rw [bind_ok (accept_false (k := .semicolon) hc' nofun)]
    rfl
  rw [line, bind_ok hrun, bind_ok ((collect_run _ hc').trans (collectUpTo_none hnone _)),
    bind_ok (accept_true (k := .newline) hc' rfl)]
  rfl

/-- The word `match` alone on a line begins no match statement. -/
theorem matchStmt_alone (hc : c.words = w :: Word.newline :: more) :
    matchStmt read field inner c = .ok none c := by
  let c₁ := { c with attempts := c.attempts + 1 }
  have hadvance : c₁.advance.words = Word.newline :: more :=
    Cursor.words_advance (c := c₁) hc (by simp)
  have hsubject : matchSubject read c₁ = .ok none c₁.advance := by
    rw [matchSubject, bind_ok (next_run c₁), bind_ok (startsStarred_run hadvance)]
    rfl
  have hattempt : attempt (matchSubject read) c = .ok none c := by rw [attempt, hsubject]
  rw [matchStmt, bind_ok (peek_run c), bind_ok hattempt]
  rfl

/-- A word that can be a line of its own begins no compound statement. -/
theorem statements_line (hc : c.words = w :: Word.newline :: more) (hw : w.kind.standsAlone) :
    statements read field inner c = line read c := by
  have hword := isWordAt_run [] hc (text "match")
  rw [statements, bind_ok (peek_run c), Cursor.kind_peek hc]
  cases hkind : w.kind <;> rw [hkind] at hw <;> first
    | refine (bind_ok hword).trans ?_
      split
      · rw [bind_ok (matchStmt_alone hc)]
      · rfl
    | cases hw

/-- A name alone is no type alias. -/
theorem startsTypeAlias_false (hc : c.words = w :: Word.newline :: more) :
    startsTypeAlias c = .ok false c := by
  have htwo : kindAt 2 c = .ok (c.peekAt 2).kind c := rfl
  have hword : isWordAt 0 (text "type") c =
      .ok (w.kind == .identifier && w.text == text "type") c := isWordAt_run [] hc _
  rw [startsTypeAlias, bind_ok hword]
  split
  · rw [bind_ok htwo, bind_ok (kindAt_run hc)]
    rfl
  · rfl

/-- A word that is a simple statement. -/
theorem simpleStmt_word {shape : Stmt.Shape} (hc : c.words = w :: Word.newline :: more)
    (hw : (w.kind, shape) ∈ [(.kwPass, .pass), (.kwBreak, .breakLoop), (.kwContinue, .continueLoop),
      (.kwReturn, .returnValue none)]) :
    ∃ v, simpleStmt read c = .ok v c.advance ∧ v.bare = .new shape.bare := by
  have hadvance := Cursor.words_advance hc (by simp)
  refine ⟨.node (c.advance.spanFrom c.peek.start) shape, ?_, rfl⟩
  have hreturn : returnStmt read c =
      .ok (.node (c.advance.spanFrom c.peek.start) (.returnValue none)) c.advance := by
    rw [returnStmt, bind_ok (next_run c), bind_ok (startsStarred_run hadvance)]
    rfl
  simp only [List.mem_cons, Prod.mk.injEq, List.not_mem_nil, or_false] at hw
  rw [simpleStmt, bind_ok (kind_run hc)]
  obtain ⟨hw, rfl⟩ | ⟨hw, rfl⟩ | ⟨hw, rfl⟩ | ⟨hw, rfl⟩ := hw <;> rw [hw]
  · rfl
  · rfl
  · rfl
  · exact hreturn

/-- A name alone on a line is a statement. -/
theorem simpleStmt_name {name : Bytes} (field : FieldReading) {n : Nat} (hn : 1 < n)
    (hc : c.words = ⟨.identifier, name⟩ :: Word.newline :: more) :
    ∃ v c', simpleStmt (readUpTo field n) c = .ok v c' ∧ c'.words = Word.newline :: more ∧
      v.bare = .new (.expression (.new (.name name .load))) := by
  have hname : Reads .expression [⟨.identifier, name⟩] (.new (.name name .load)) :=
    ((Leads.name rfl).reads (.inr rfl)).mono (Nat.zero_le _)
  obtain ⟨v, c', hrun, hc', hv⟩ := hname.read (g := .expression) field hn hc (by decide)
  have hexpression : yieldOrExpressions (readUpTo field n) c = .ok v c' := by
    rw [yieldOrExpressions, bind_ok (at?_run hc _), if_neg (by exact Bool.false_ne_true)]
    exact starExpressions_single hc (by rintro ⟨⟩) hrun hc' (by rintro ⟨⟩)
  have hstarred : v.isStarred = false := by rw [← Expr.isStarred_bare, hv, hname.notStarred]
  refine ⟨.node (c'.spanFrom c.peek.start) (.expression v), c', ?_, hc', by simp [hv, Stmt.new]⟩
  rw [simpleStmt, bind_ok (kind_run hc)]
  refine (bind_ok (startsTypeAlias_false hc)).trans ?_
  rw [if_neg Bool.false_ne_true, expressionStmt, bind_ok (peek_run c), bind_ok hexpression,
    bind_ok (accept_false (k := .colon) hc' (by rintro ⟨⟩)), if_neg Bool.false_ne_true,
    bind_ok (kind_run hc')]
  refine (bind_ok (at?_run hc' _)).trans ?_
  rw [if_neg (by decide), plainValue, hstarred]
  rfl

end Parse

namespace ReadsAs

/-- A statement that is alone on a line of a single word. -/
theorem alone {w : Word} {s : Stmt} (hw : w.kind.standsAlone)
    (hrun : ∀ {n : Nat} {c : Cursor} {more : List Word} (field : FieldReading), 1 < n →
      c.words = w :: Word.newline :: more →
      ∃ v c', simpleStmt (readUpTo field n) c = .ok v c' ∧ c'.words = Word.newline :: more ∧
        v.bare = s) : ReadsAs [w, Word.newline] s where
  begins := by
    refine ⟨w, _, rfl, ?_⟩
    cases hkind : w.kind <;> first | rfl | exact nomatch hkind ▸ hw
  run := by
    intro field n limit c f more hn hc _
    obtain ⟨limit, rfl⟩ : ∃ m, limit = m + 1 := ⟨limit - 1, by simp at hn; omega⟩
    obtain ⟨v, c', hv, hc', hbare⟩ := hrun field (n := n) (by simp at hn; omega) hc
    refine ⟨v, c'.advance, ?_, Cursor.words_advance hc' (by simp), hbare⟩
    rw [statementsUpTo, statements_line hc hw, line_run hv hc']

/-- A word that is a statement. -/
theorem word {w : Word} {shape : Stmt.Shape}
    (hw : (w.kind, shape) ∈ [(.kwPass, .pass), (.kwBreak, .breakLoop), (.kwContinue, .continueLoop),
      (.kwReturn, .returnValue none)]) : ReadsAs [w, Word.newline] (.new shape.bare) := by
  refine alone ?_ fun _ _ hc => ?_
  · simp only [List.mem_cons, Prod.mk.injEq, List.not_mem_nil, or_false] at hw
    obtain ⟨hw, -⟩ | ⟨hw, -⟩ | ⟨hw, -⟩ | ⟨hw, -⟩ := hw <;> rw [hw] <;> rfl
  · obtain ⟨v, hrun, hv⟩ := simpleStmt_word hc hw
    exact ⟨v, _, hrun, Cursor.words_advance hc (by simp), hv⟩

/-- A name is a statement, also where it is `match` or `type`. -/
theorem name (name : Bytes) : ReadsAs [⟨.identifier, name⟩, Word.newline]
    (.new (.expression (.new (.name name .load)))) :=
  alone rfl fun field hn hc => simpleStmt_name field hn hc

end ReadsAs

end SyntaxTree
