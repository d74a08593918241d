import SyntaxTree.Proofs.Token.Division

/-
# Single lines

A text of words and blanks that begins with a word becomes one line of tokens: those of its words,
a line end and the end of the input.
-/

namespace SyntaxTree

/-! ## Division into words -/

/-- Words that are no comments and are spelled as they stand. -/
structure Word.IsSpelled (w : Word) : Prop where
  notComment : w.kind ≠ .comment
  spelling : Layout.tokenText w.kind w.text = w.text

/-- Lexemes of a line and the words among them. -/
inductive WordLine : List Lexeme → List Word → Prop where
  | nil : WordLine [] []
  | blank {ls : List Lexeme} {ws : List Word} (s : Bytes) (h : WordLine ls ws) :
    WordLine (⟨.blank, s⟩ :: ls) ws
  | token {ls : List Lexeme} {ws : List Word} {w : Word}
    (hw : w.IsSpelled) (h : WordLine ls ws) :
    WordLine (⟨.token w.kind, w.text⟩ :: ls) (w :: ws)

theorem WordLine.append {ls ls' : List Lexeme} {ws ws' : List Word} (h : WordLine ls ws)
    (h' : WordLine ls' ws') : WordLine (ls ++ ls') (ws ++ ws') := by
  induction h with
  | nil => exact h'
  | blank s _ ih => exact .blank s ih
  | token hw _ ih => exact .token hw ih

/-- A text has the given words in front of the rest of it. -/
def Divides (s rest : Bytes) (ws : List Word) : Prop :=
  ∃ ls, Division.ofBytes s = ls.foldr Division.cons (Division.ofBytes rest) ∧ WordLine ls ws

namespace Divides

/-- Words in front of more words. -/
theorem trans {s s' rest : Bytes} {ws ws' : List Word} (h : Divides s s' ws)
    (h' : Divides s' rest ws') : Divides s rest (ws ++ ws') := by
  obtain ⟨ls, hls, hws⟩ := h
  obtain ⟨ls', hls', hws'⟩ := h'
  exact ⟨ls ++ ls', by rw [hls, hls', List.foldr_append], hws.append hws'⟩

/-- A blank is no word. -/
theorem blank {rest : Bytes} (hrest : ∀ b ∈ rest.head?, b.isBlank = false) :
    Divides (Byte.space :: rest) rest [] :=
  ⟨[⟨.blank, [Byte.space]⟩],
    Division.ofBytes_append (t := []) (Lexeme.next_blank hrest), .blank _ .nil⟩

/-- A token that is found in front of the rest is a word if it is spelled as it stands. -/
theorem of_next {b : Byte} {t rest : Bytes} {kind : TokenKind}
    (h : Lexeme.next b (t ++ rest) = .ok (.token kind, rest))
    (hw : Word.IsSpelled ⟨kind, b :: t⟩) :
    Divides (b :: t ++ rest) rest [⟨kind, b :: t⟩] :=
  ⟨[⟨.token kind, b :: t⟩], Division.ofBytes_append h, .token hw .nil⟩

end Divides

/-! ## Layout -/

/-- The tokens of a source that is a single line of the given words. -/
def IsLine (tokens : Except LexicalError (List Token)) (ws : List Word) : Prop :=
  ∃ ts newline final, tokens = .ok (ts ++ [newline, final]) ∧ ts.map Token.word = ws ∧
    (∀ t ∈ ts, t.kind ≠ .comment) ∧ newline.kind = .newline ∧ final.kind = .endOfInput

namespace Layout

/-- The tokens of a lexeme stand in front of those of the lexemes behind it. -/
theorem isLine_cons {layout layout' : Layout} {lexeme : Lexeme} {ls : List Lexeme}
    {emitted : List Token} {ws : List Word}
    (hstep : layout.step false lexeme = .ok (emitted, layout'))
    (hemitted : ∀ t ∈ emitted, t.kind ≠ .comment)
    (h : IsLine (layout'.tokens false none ls) ws) :
    IsLine (layout.tokens false none (lexeme :: ls)) (emitted.map Token.word ++ ws) := by
  obtain ⟨ts, newline, final, htokens, hws, hcomment, hkinds⟩ := h
  refine ⟨emitted ++ ts, newline, final, ?_, by rw [List.map_append, hws],
    List.forall_mem_append.mpr ⟨hemitted, hcomment⟩, hkinds⟩
  rw [tokens, hstep]
  show (layout'.tokens false none ls >>= fun more => Except.ok (emitted ++ more)) = _
  rw [htokens, List.append_assoc]
  rfl

/-- Blanks behind the first token of a line have no trace. -/
theorem step_blank {layout : Layout} (h : layout.margin = none) (s : Bytes) :
    layout.step false ⟨.blank, s⟩ = .ok ([], layout.advance s) := by
  obtain ⟨_, _, _, margin, _⟩ := layout
  obtain rfl : margin = none := h
  rfl

/-- A token of a line outside of blocks. -/
theorem step_token {layout layout' : Layout} (h : layout.openLine = .ok ([], layout'))
    (kind : TokenKind) (s : Bytes) :
    layout.step false ⟨.token kind, s⟩ = .ok ([layout'.token kind s],
      { layout' with depth := depthAfter layout'.depth kind, lineOpen := true }.advance s) := by
  rw [step, h]
  rfl

/-- A word in front of a line of words. -/
theorem isLine_word {layout layout' : Layout} (hopen : layout.openLine = .ok ([], layout'))
    {w : Word} (hw : w.IsSpelled) {ls : List Lexeme} {ws : List Word}
    (h : IsLine (({ layout' with
      depth := depthAfter layout'.depth w.kind, lineOpen := true }.advance w.text).tokens
        false none ls) ws) :
    IsLine (layout.tokens false none (⟨.token w.kind, w.text⟩ :: ls)) (w :: ws) := by
  have hline := isLine_cons (step_token hopen w.kind w.text)
    (List.forall_mem_singleton.mpr hw.notComment) h
  have hword : (layout'.token w.kind w.text).word = w := by rw [token, Token.word, hw.spelling]
  rw [List.map_singleton, hword] at hline
  exact hline

/-- The rest of a line outside of blocks. -/
theorem tokens_line {ls : List Lexeme} {ws : List Word} (h : WordLine ls ws) :
    ∀ {layout : Layout}, layout.margin = none → layout.lineOpen = true → layout.levels = [] →
      IsLine (layout.tokens false none ls) ws := by
  induction h with
  | nil =>
    intro layout _ hopen hlevels
    refine ⟨[], layout.mark .newline (text "\n"), layout.mark .endOfInput [], ?_, rfl,
      List.forall_mem_nil _, rfl, rfl⟩
    rw [tokens, finish, hopen, hlevels]
    rfl
  | blank s _ ih =>
    intro layout hmargin hopen hlevels
    exact isLine_cons (step_blank hmargin s) (List.forall_mem_nil _) (ih hmargin hopen hlevels)
  | @token ls ws w hw _ ih =>
    intro layout hmargin _ hlevels
    have hline : layout.openLine = .ok ([], layout) := by rw [openLine, hmargin]
    exact isLine_word hline hw (ih hmargin rfl hlevels)

/-- A source that begins with a word is a line of its words. -/
theorem start_line {ls : List Lexeme} {w : Word} {ws : List Word}
    (hw : w.IsSpelled) (h : WordLine ls ws) :
    IsLine (start.tokens false none (⟨.token w.kind, w.text⟩ :: ls)) (w :: ws) := by
  have hline : start.openLine = .ok ([], { start with margin := none }) := rfl
  exact isLine_word hline hw (tokens_line h rfl rfl rfl)

end Layout

/-! ## Sources of one line -/

/-- Only a blank begins with a blank. -/
theorem Lexeme.next_ne_blank {b : Byte} {s rest : Bytes} (hb : b.isBlank = false) :
    next b s ≠ .ok (.blank, rest) := by
  intro h
  rw [next, hb, if_neg Bool.false_ne_true] at h
  split at h
  · cases h
  split at h
  · cases h
  split at h
  · obtain ⟨_, _, h⟩ := exists_of_map_eq_ok h
    cases h
  · obtain ⟨_, _, h⟩ := exists_of_map_eq_ok h
    cases h

/-- The division of a text that is not empty is not empty either. -/
theorem Division.ofBytes_cons_ne_empty (b : Byte) (t : Bytes) : ofBytes (b :: t) ≠ empty := by
  rw [ofBytes]
  split
  · intro h
    cases h
  · intro h
    cases h

/-- The first lexeme of a text that begins with no blank is none. -/
theorem Division.ofBytes_ne_cons_blank {b : Byte} {t s : Bytes} (hb : b.isBlank = false)
    (division : Division) : ofBytes (b :: t) ≠ cons ⟨.blank, s⟩ division := by
  rw [ofBytes]
  split
  · intro h
    cases h
  · rename_i kind rest hnext
    intro h
    obtain ⟨hlexeme, -⟩ := List.cons.inj (congrArg Division.lexemes h)
    obtain rfl : kind = .blank := congrArg Lexeme.kind hlexeme
    exact Lexeme.next_ne_blank hb hnext

/-- What lexemes in front of a division add to it. -/
theorem Division.foldr_cons (ls : List Lexeme) (division : Division) :
    ls.foldr cons division = ⟨ls ++ division.lexemes, division.failure⟩ := by
  induction ls with
  | nil => rfl
  | cons lexeme ls ih =>
    rw [List.foldr_cons, ih]
    rfl

/-- A division that consists of lexemes has no failure. -/
theorem Division.foldr_cons_empty (ls : List Lexeme) : ls.foldr cons empty = ⟨ls, none⟩ := by
  rw [foldr_cons]
  exact congrArg (Division.mk · none) (List.append_nil ls)

/-- A text that begins with a byte of ASCII has no mark of its encoding. -/
theorem dropMark_cons {b : Byte} (hascii : b.isNonAscii = false) (t : Bytes) :
    dropMark (b :: t) = b :: t := by
  have hb : (0xEF : Byte) ≠ b := by
    rintro rfl
    exact absurd hascii (by decide)
  rw [dropMark, Bytes.dropPrefix?, if_neg hb]
  rfl

/-- A text that begins with a word and divides into words becomes a line of them. -/
theorem Divides.tokenize {b : Byte} {t : Bytes} {ws : List Word} (h : Divides (b :: t) [] ws)
    (hblank : b.isBlank = false) (hascii : b.isNonAscii = false) :
    IsLine (SyntaxTree.tokenize false (b :: t)) ws := by
  obtain ⟨ls, hls, hline⟩ := h
  rw [show Division.ofBytes [] = Division.empty by rw [Division.ofBytes]] at hls
  have hdivision := hls.trans (Division.foldr_cons_empty ls)
  rw [SyntaxTree.tokenize, dropMark_cons hascii, hdivision]
  cases hline with
  | nil => exact absurd hls (Division.ofBytes_cons_ne_empty b t)
  | blank s _ => exact absurd hls (Division.ofBytes_ne_cons_blank hblank _)
  | token hw hline => exact Layout.start_line hw hline

end SyntaxTree
