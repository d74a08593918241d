import SyntaxTree.Proofs.Grammar.Module
import SyntaxTree.Proofs.Grammar.Separated
import SyntaxTree.Proofs.Token.Block

/-
# Lines and blocks of words

Between the words of a source stand those of its layout: line ends, indents and dedents.  A lone
`pass` is the smallest line and, in a block of its own, the smallest block.  A module of one
statement is read from the words of that statement and the end of the input.
-/

namespace SyntaxTree

open Parse

/-! ## Words of the layout -/

namespace Word

/-- A line end. -/
def newline : Word := ⟨.newline, SyntaxTree.text "\n"⟩

/-- The blanks in front of a block. -/
def indent (width : Nat) : Word := ⟨.indent, Bytes.spaces width⟩

/-- The end of a block. -/
def dedent : Word := ⟨.dedent, SyntaxTree.text "<DEDENT>"⟩

/-- The end of a source. -/
def final : Word := ⟨.endOfInput, []⟩

/-- The statement that does nothing. -/
def pass : Word := ⟨.kwPass, SyntaxTree.text "pass"⟩

end Word

/-- The word at a distance is the one behind as many words. -/
theorem Cursor.word_peekAt {c : Cursor} {front : List Word} {w : Word} {ws : List Word}
    (h : c.words = front ++ w :: ws) : (c.peekAt front.length).word = w := by
  obtain ⟨_, _, rest, final, _⟩ := c
  show (rest.getD front.length final).word = w
  replace h : (rest ++ [final]).map Token.word = front ++ w :: ws := h
  clear * - h
  induction front generalizing rest with
  | nil => cases rest <;> exact (List.cons.inj h).1
  | cons first front ih =>
    cases rest with
    | nil => exact absurd (List.cons.inj h).2.symm (by simp)
    | cons t rest => exact ih rest (List.cons.inj h).2

namespace Parse

variable {α : Type} {read : Reading} {c : Cursor} {more : List Word}

theorem isWordAt_run (front : List Word) {w : Word} {ws : List Word}
    (h : c.words = front ++ w :: ws) (word : Bytes) :
    isWordAt front.length word c = .ok (w.kind == .identifier && w.text == word) c := by
  rw [← Cursor.word_peekAt h]
  rfl

theorem kindAt_eq (front : List Word) {w : Word} {ws : List Word}
    (h : c.words = front ++ w :: ws) : kindAt front.length c = .ok w.kind c := by
  rw [← Cursor.word_peekAt h]
  rfl

/-! ## Lines -/

/-- What is read once and then ends is read alone. -/
theorem untilEnd_one {ends : Parse Bool} {item : Parse (List α)} {c' : Cursor} {as : List α}
    {w : Word} {ws : List Word} (hc : c.words = w :: ws) (hws : ws ≠ [])
    (hw : w.kind ≠ .newline) (hstart : ends c = .ok false c) (hrun : item c = .ok as c')
    (hend : ends c' = .ok true c') : untilEnd ends item c = .ok as c' := by
  obtain ⟨next, ws, rfl⟩ := List.exists_cons_of_ne_nil hws
  let step : Parse (Option (List α)) := do
    if ← ends then return none
    else if ← accept .newline then return some []
    else return some (← item)
  have hsome : step c = .ok (some as) c' := by
    dsimp only [step]
    rw [bind_ok hstart, if_neg Bool.false_ne_true, bind_ok (accept_false hc hw),
      if_neg Bool.false_ne_true, bind_ok hrun]
    rfl
  have hnone : step c' = .ok none c' := by
    dsimp only [step]
    rw [bind_ok hend]
    rfl
  have hitems := (collect_run step hc).trans
    (collectUpTo_some hsome (collectUpTo_none hnone ws.length))
  rw [untilEnd, bind_ok hitems, List.flatten_singleton]
  rfl

/-- A lone `pass` is a line. -/
theorem line_pass (read : Reading) (hc : c.words = Word.pass :: Word.newline :: more)
    (hmore : more ≠ []) :
    ∃ s c', line read c = .ok [s] c' ∧ c'.words = more ∧ s.bare = .new .pass := by
  have hadvance := Cursor.words_advance hc (by simp)
  have hpass :
      simpleStmt read c = .ok (.node (c.advance.spanFrom c.peek.start) .pass) c.advance := by
    rw [simpleStmt, bind_ok (kind_run hc)]
    rfl
  refine ⟨.node (c.advance.spanFrom c.peek.start) .pass, c.advance.advance, ?_,
    Cursor.words_advance hadvance hmore, rfl⟩
  rw [line, bind_ok hpass, bind_ok ((collect_run _ hadvance).trans (collectUpTo_none ?_ _)),
    bind_ok (accept_true (k := .newline) hadvance rfl)]
  · rfl
  · rw [bind_ok (accept_false (k := .semicolon) hadvance nofun)]
    rfl

theorem endsBlock_run {w : Word} {ws : List Word} (hc : c.words = w :: ws) :
    endsBlock c = .ok (w.kind == .dedent || w.kind == .endOfInput) c := by
  have hend := at?_run hc .endOfInput
  rw [endsBlock, bind_ok (at?_run hc _)]
  cases w.kind == TokenKind.dedent with
  | false => exact hend
  | true => rfl

/-- A statement of its own as a block. -/
theorem block_indented {inner : Parse (List Stmt)} {width : Nat} {w : Word} {ws : List Word}
    (hc : c.words = Word.newline :: Word.indent width :: w :: ws) (hws : ws ≠ [])
    (hw : w.kind ≠ .newline ∧ w.kind ≠ .dedent ∧ w.kind ≠ .endOfInput) {stmts : List Stmt}
    {c' : Cursor} (hrun : inner c.advance.advance = .ok stmts c')
    (hc' : c'.words = Word.dedent :: more) : block read inner c = .ok stmts c'.advance := by
  have hindent := Cursor.words_advance hc (by simp)
  have hbody := Cursor.words_advance hindent (by simp)
  have hstmts : untilEnd endsBlock inner c.advance.advance = .ok stmts c' := by
    refine untilEnd_one hbody hws hw.1 ?_ hrun (endsBlock_run hc')
    rw [endsBlock_run hbody]
    simp [hw.2]
  rw [block, bind_ok (accept_true (k := .newline) hc rfl), if_pos rfl,
    bind_ok (at?_run hindent _), if_pos (by rfl), bind_ok (next_run _), bind_ok hstmts,
    bind_ok (accept_true (k := .dedent) hc' rfl)]
  rfl

/-- A lone `pass` on a line of its own is a block. -/
theorem block_pass (read : Reading) (field : FieldReading) (limit : Nat) {width : Nat}
    (hc : c.words =
      Word.newline :: Word.indent width :: Word.pass :: Word.newline :: Word.dedent :: more)
    (hmore : more ≠ []) :
    ∃ s c', block read (statementsUpTo read field (limit + 1)) c = .ok [s] c' ∧
      c'.words = more ∧ s.bare = .new .pass := by
  have hbody := Cursor.words_advance (Cursor.words_advance hc (by simp)) (by simp)
  obtain ⟨s, c', hrun, hc', hs⟩ := line_pass read hbody (by simp)
  have hword : isWordAt 0 (text "match") c.advance.advance = .ok false c.advance.advance :=
    isWordAt_run [] hbody _
  have hinner : statementsUpTo read field (limit + 1) c.advance.advance = .ok [s] c' := by
    rw [statementsUpTo, statements, bind_ok (peek_run _), Cursor.kind_peek hbody]
    refine (bind_ok hword).trans ?_
    rw [if_neg Bool.false_ne_true, hrun]
  exact ⟨s, c'.advance, block_indented hc (by simp) ⟨nofun, nofun, nofun⟩ hinner hc',
    Cursor.words_advance hc' hmore, hs⟩

end Parse

/-! ## Modules -/

/-- A module is read from words if its statements are read from them. -/
theorem Module.exists_ofSource [Unicode.CharacterNames] {ws : List Word} {ss : List Stmt}
    (h : ∀ (field : FieldReading) (n : Nat) (c : Cursor), ws.length < n →
      c.words = ws ++ [Word.final] →
      ∃ vs c', untilEnd (at? .endOfInput) (statementsUpTo (readUpTo field n) field n) c =
      .ok vs c' ∧
        Stmt.bareAll vs = ss)
    {source : Bytes} (hwords : HasWords (tokenize false source) (ws ++ [Word.final])) :
    ∃ m, Module.ofSource .exec source = .ok m ∧
      m.bare = { (Module.empty .exec).bare with body := ss } := by
  obtain ⟨ts, htokens, hts, hcomment⟩ := hwords
  obtain ⟨front, last, rfl, hfront, hlast⟩ := List.map_eq_append_iff.mp hts
  obtain ⟨final, rfl, hfinal⟩ := List.map_eq_singleton_iff.mp hlast
  obtain ⟨hfront', -⟩ := List.forall_mem_append.mp hcomment
  obtain ⟨hc, hrest⟩ := Cursor.words_ofTokens (Bytes.lines source) hfront'
    (congrArg Word.kind hfinal)
  rw [hfront, hfinal] at hc
  rw [Module.ofSource, Parse.ofSource, htokens]
  generalize hcursor : Cursor.ofTokens (Bytes.lines source) (front ++ [final]) = c at hc hrest
  obtain ⟨_, hexec⟩ := Parse.exists_execModule_eq c
  have hlimit : ws.length < c.rest.length + 1 := by
    rw [hrest, ← hfront, List.length_map]
    exact Nat.lt_succ_self _
  obtain ⟨vs, c', hbody, hvs⟩ := h _ _ c hlimit hc
  refine ⟨{ Module.empty .exec with body := vs }, ?_, by simp [hvs]⟩
  refine Parse.ofTokens_eq_ok.mpr ⟨c', ?_⟩
  show execModule _ = _
  rw [hcursor, hexec, moduleUpTo, bind_ok hbody]
  rfl

/-- Words that read as a single statement in front of the end of the input. -/
structure ReadsStmt (ws : List Word) (s : Stmt) : Prop where
  begins : ∃ w tail, ws = w :: tail ∧ w.kind ≠ .newline ∧ w.kind ≠ .endOfInput
  run : ∀ (field : FieldReading) (n : Nat) (c : Cursor), ws.length < n →
    c.words = ws ++ [Word.final] →
    ∃ v c', Parse.statementsUpTo (Parse.readUpTo field n) field n c = .ok [v] c' ∧
      c'.words = [Word.final] ∧ v.bare = s

/-- A module of one statement is read from the words of the statement. -/
theorem ReadsStmt.ofSource [Unicode.CharacterNames] {ws : List Word} {s : Stmt} (h : ReadsStmt ws s)
    {source : Bytes} (hwords : HasWords (tokenize false source) (ws ++ [Word.final])) :
    ∃ m, Module.ofSource .exec source = .ok m ∧
      m.bare = { (Module.empty .exec).bare with body := [s] } := by
  refine Module.exists_ofSource (fun field n c hn hc => ?_) hwords
  obtain ⟨v, c', hrun, hc', hv⟩ := h.run field n c hn hc
  obtain ⟨w, tail, rfl, hnewline, hend⟩ := h.begins
  refine ⟨[v], c', untilEnd_one hc (by simp) hnewline ?_ hrun (at?_run hc' _), by simp [hv]⟩
  rw [at?_run hc, show (w.kind == TokenKind.endOfInput) = false by simpa using hend]

end SyntaxTree
