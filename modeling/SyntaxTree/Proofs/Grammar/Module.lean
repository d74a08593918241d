import SyntaxTree.Grammar.Module
import SyntaxTree.Proofs.Grammar.Whole
import SyntaxTree.Proofs.Token.Line

/-
# Modules and their first statements

The words that a source begins with are ahead of the cursor where the reading of its module begins,
whatever stands behind them, and the first statement is read from them.
-/

namespace SyntaxTree

/-! ## The words a source begins with -/

namespace Layout

variable {layout : Layout} {failure : Option LexicalCause} {tokens : List Token}

/-- The tokens of a lexeme come first. -/
theorem exists_of_tokens_cons {keepComments : Bool} {lexeme : Lexeme} {ls : List Lexeme}
    (h : layout.tokens keepComments failure (lexeme :: ls) = .ok tokens) :
    ∃ emitted layout' more, layout.step keepComments lexeme = .ok (emitted, layout') ∧
      layout'.tokens keepComments failure ls = .ok more ∧ tokens = emitted ++ more := by
  obtain ⟨⟨emitted, layout'⟩, hstep, h⟩ := SyntaxTree.exists_of_bind_eq_ok h
  obtain ⟨more, hmore, h⟩ := SyntaxTree.exists_of_bind_eq_ok h
  exact ⟨emitted, layout', more, hstep, hmore, (Except.ok.inj h).symm⟩

/-- A word that comes first gives the first token. -/
theorem exists_of_tokens_word {layout' : Layout} (hopen : layout.openLine = .ok ([], layout'))
    {w : Word} (hw : w.IsSpelled) {ls : List Lexeme}
    (h : layout.tokens false failure (⟨.token w.kind, w.text⟩ :: ls) = .ok tokens) :
    ∃ t more, tokens = t :: more ∧ t.word = w ∧
      ({ layout' with
        depth := depthAfter layout'.depth w.kind, lineOpen := true }.advance w.text).tokens
          false failure ls = .ok more := by
  obtain ⟨emitted, behind, more, hstep, hmore, rfl⟩ := exists_of_tokens_cons h
  obtain ⟨rfl, rfl⟩ := Prod.mk.inj (Except.ok.inj ((step_token hopen _ _).symm.trans hstep))
  exact ⟨_, more, rfl, by rw [token, Token.word, hw.spelling], hmore⟩

/-- Words within a line give their tokens, whatever lexemes follow. -/
theorem exists_of_tokens_line {ls ls' : List Lexeme} {ws : List Word} (h : WordLine ls ws) :
    ∀ {layout : Layout} {tokens : List Token}, layout.margin = none →
      layout.tokens false failure (ls ++ ls') = .ok tokens →
      ∃ ts more, tokens = ts ++ more ∧ ts.map Token.word = ws ∧ ∀ t ∈ ts, t.kind ≠ .comment := by
  induction h with
  | nil => exact fun {_ tokens} _ _ => ⟨[], tokens, rfl, rfl, List.forall_mem_nil _⟩
  | blank s _ ih =>
    intro layout tokens hmargin htokens
    rw [List.cons_append] at htokens
    obtain ⟨emitted, layout', more, hstep, hmore, rfl⟩ := exists_of_tokens_cons htokens
    obtain ⟨rfl, rfl⟩ := Prod.mk.inj (Except.ok.inj ((step_blank hmargin s).symm.trans hstep))
    have hbehind : (layout.advance s).margin = none := hmargin
    exact ih hbehind hmore
  | token hw _ ih =>
    intro layout tokens hmargin htokens
    rw [List.cons_append] at htokens
    have hline : layout.openLine = .ok ([], layout) := by rw [openLine, hmargin]
    obtain ⟨t, more, rfl, ht, hmore⟩ := exists_of_tokens_word hline hw htokens
    obtain ⟨ts, more', rfl, hts, hcomment⟩ := ih (by exact hmargin) hmore
    refine ⟨t :: ts, more', rfl, by rw [List.map_cons, ht, hts], ?_⟩
    exact List.forall_mem_cons.mpr ⟨(congrArg Word.kind ht).trans_ne hw.notComment, hcomment⟩

end Layout

/-- A source that begins with words has tokens that begin with them. -/
theorem Divides.exists_of_tokenize {b : Byte} {t rest : Bytes} {ws : List Word}
    (h : Divides (b :: t) rest ws) (hblank : b.isBlank = false) (hascii : b.isNonAscii = false)
    {tokens : List Token} (htokens : SyntaxTree.tokenize false (b :: t) = .ok tokens) :
    ∃ ts more, tokens = ts ++ more ∧ ts.map Token.word = ws ∧ ∀ t ∈ ts, t.kind ≠ .comment := by
  obtain ⟨ls, hls, hline⟩ := h
  rw [SyntaxTree.tokenize, dropMark_cons hascii, hls, Division.foldr_cons] at htokens
  cases hline with
  | nil => exact ⟨[], tokens, rfl, rfl, List.forall_mem_nil _⟩
  | blank s _ => exact absurd hls (Division.ofBytes_ne_cons_blank hblank _)
  | token hw hline =>
    have hopen : Layout.start.openLine = .ok ([], { Layout.start with margin := none }) := rfl
    obtain ⟨t, more, rfl, ht, hmore⟩ := Layout.exists_of_tokens_word hopen hw htokens
    obtain ⟨ts, more', rfl, hts, hcomment⟩ := Layout.exists_of_tokens_line hline rfl hmore
    refine ⟨t :: ts, more', rfl, by rw [List.map_cons, ht, hts], ?_⟩
    exact List.forall_mem_cons.mpr ⟨(congrArg Word.kind ht).trans_ne hw.notComment, hcomment⟩

/-- The words of the first tokens are ahead of the cursor in front of all tokens. -/
theorem Cursor.exists_words_ofTokens (lines : List Bytes) {ts : List Token}
    (hcomment : ∀ t ∈ ts, t.kind ≠ .comment) (more : List Token) :
    ∃ tail, (ofTokens lines (ts ++ more)).words = ts.map Token.word ++ tail := by
  have hfilter : (ts ++ more).filter (·.kind ≠ .comment) =
      ts ++ more.filter (·.kind ≠ .comment) := by
    rw [List.filter_append, List.filter_eq_self.mpr fun t ht => by simpa using hcomment t ht]
  rw [ofTokens, hfilter]
  cases hlast : (ts ++ more.filter (·.kind ≠ .comment)).getLast? with
  | none =>
    obtain ⟨rfl, -⟩ := List.append_eq_nil_iff.mp (List.getLast?_eq_none_iff.mp hlast)
    exact ⟨_, rfl⟩
  | some last =>
    dsimp only
    split
    · have hall := List.dropLast_append_getLast? last hlast
      refine ⟨(more.filter (·.kind ≠ .comment)).map Token.word, ?_⟩
      rw [words, hall, List.map_append]
    · exact ⟨_, by rw [words, List.append_assoc, List.map_append]⟩

namespace Parse

/-! ## The first statement -/

/-- Statements up to the end of the input, where expressions and statements are nested less than
`limit` times. -/
def moduleUpTo (field : FieldReading) (limit : Nat) : Parse Module := do
  let body ← untilEnd (at? .endOfInput) (statementsUpTo (readUpTo field limit) field limit)
  return { Module.empty .exec with body := body }

theorem exists_execModule_eq [names : Unicode.CharacterNames] (c : Cursor) :
    ∃ read, execModule c = moduleUpTo ⟨names, read⟩ (c.rest.length + 1) c := ⟨_, rfl⟩

/-- The statements of a module begin with those that the reading at its first word gives. -/
theorem exists_of_moduleUpTo {field : FieldReading} {limit : Nat} {c c' : Cursor} {w : Word}
    {ws : List Word} {m : Module} (hc : c.words = w :: ws) (hend : w.kind ≠ .endOfInput)
    (hnewline : w.kind ≠ .newline) (h : moduleUpTo field limit c = .ok m c') :
    ∃ stmts c₁ more, statementsUpTo (readUpTo field limit) field limit c = .ok stmts c₁ ∧
      m.body = stmts ++ more := by
  obtain ⟨body, c₂, hbody, h⟩ := Parse.exists_of_bind_eq_ok h
  cases h
  obtain ⟨items, c₃, hitems, h⟩ := Parse.exists_of_bind_eq_ok hbody
  cases h
  rw [collect_run _ hc] at hitems
  obtain ⟨o, c₄, hstep, hrest⟩ := Parse.exists_of_bind_eq_ok hitems
  rw [bind_ok (at?_run hc _), if_neg (by simpa using hend), bind_ok (accept_false hc hnewline),
    if_neg Bool.false_ne_true] at hstep
  obtain ⟨stmts, c₁, hstmts, hpure⟩ := Parse.exists_of_bind_eq_ok hstep
  cases hpure
  obtain ⟨more, c₅, -, hpure⟩ := Parse.exists_of_bind_eq_ok hrest
  cases hpure
  exact ⟨stmts, _, more.flatten, hstmts, List.flatten_cons⟩

end Parse

/-- The first statements of a source are read from the words that it begins with. -/
theorem Module.exists_of_ofSource [Unicode.CharacterNames] {source rest : Bytes} {w : Word}
    {ws : List Word} (h : Divides source rest (w :: ws))
    (hbegins : ∃ b t, source = b :: t ∧ b.isBlank = false ∧ b.isNonAscii = false)
    (hend : w.kind ≠ .endOfInput) (hnewline : w.kind ≠ .newline) {m : Module}
    (hread : Module.ofSource .exec source = .ok m) :
    ∃ field limit inner c stmts c₁ tail more, c.words = w :: (ws ++ tail) ∧ ws.length < limit ∧
      Parse.statements (Parse.readUpTo field limit) field inner c = .ok stmts c₁ ∧
      m.body = stmts ++ more := by
  obtain ⟨b, t, rfl, hblank, hascii⟩ := hbegins
  rw [Module.ofSource, Parse.ofSource] at hread
  cases htokens : tokenize false (b :: t) with
  | error e =>
    rw [htokens] at hread
    cases hread
  | ok tokens =>
    rw [htokens] at hread
    obtain ⟨c', hrun⟩ := Parse.ofTokens_eq_ok.mp hread
    obtain ⟨ts, tail, rfl, hts, hcomment⟩ := h.exists_of_tokenize hblank hascii htokens
    obtain ⟨tail', hwords⟩ :=
      Cursor.exists_words_ofTokens (Bytes.lines (b :: t)) hcomment tail
    rw [hts, List.cons_append] at hwords
    generalize Cursor.ofTokens (Bytes.lines (b :: t)) (ts ++ tail) = c at hrun hwords
    obtain ⟨_, hexec⟩ := Parse.exists_execModule_eq c
    obtain ⟨stmts, c₁, more, hstmts, hbody⟩ :=
      Parse.exists_of_moduleUpTo hwords hend hnewline (hexec.symm.trans hrun)
    refine ⟨_, c.rest.length + 1, _, c, stmts, c₁, tail', more, hwords, ?_, hstmts, hbody⟩
    rw [← c.length_words, hwords, List.length_cons, List.length_append]
    omega

end SyntaxTree
