import SyntaxTree.Proofs.Token.Line

/-
# Lines of blocks

Lines of words become the tokens of the words with layout between them.  A line ends only where its
brackets are closed; a line that is indented more than the one before it opens a block, and the end
of the source closes all blocks.
-/

namespace SyntaxTree

/-! ## Closed brackets -/

/-- How many brackets are open behind words. -/
def depthBehind (depth : Nat) (ws : List Word) : Nat :=
  ws.foldl (fun depth w => Layout.depthAfter depth w.kind) depth

/-- Words that close the brackets they open. -/
def ClosesBrackets (ws : List Word) : Prop := ∀ depth, depthBehind depth ws = depth

namespace ClosesBrackets

variable {ws ws' : List Word} {w o close : Word}

theorem nil : ClosesBrackets [] := fun _ => rfl

theorem append (h : ClosesBrackets ws) (h' : ClosesBrackets ws') : ClosesBrackets (ws ++ ws') := by
  intro depth
  have hbehind := h' (depthBehind depth ws)
  rw [h depth] at hbehind
  rw [depthBehind, List.foldl_append]
  exact (congrArg (depthBehind · ws') (h depth)).trans hbehind

/-- A word that is no bracket. -/
theorem single (hopening : w.kind.isOpening = false) (hclosing : w.kind.isClosing = false) :
    ClosesBrackets [w] := by
  intro depth
  show Layout.depthAfter depth w.kind = depth
  rw [Layout.depthAfter, hopening, hclosing]
  rfl

theorem cons (hopening : w.kind.isOpening = false) (hclosing : w.kind.isClosing = false)
    (h : ClosesBrackets ws) : ClosesBrackets (w :: ws) :=
  (single hopening hclosing).append h

/-- Words between brackets. -/
theorem bracketed (ho : o.kind.isOpening) (hclose : close.kind.isClosing) (h : ClosesBrackets ws) :
    ClosesBrackets (o :: (ws ++ [close])) := by
  intro depth
  have hnot : close.kind.isOpening = false := by
    cases hkind : close.kind <;> first | rfl | exact nomatch hkind ▸ hclose
  have hinner : depthBehind (depth + 1) ws = depth + 1 := h (depth + 1)
  rw [depthBehind, List.foldl_cons, List.foldl_append, Layout.depthAfter, if_pos ho]
  show Layout.depthAfter (depthBehind (depth + 1) ws) close.kind = depth
  rw [hinner, Layout.depthAfter, hnot, hclose]
  rfl

/-- Pieces that close their brackets, each behind a sign that is no bracket. -/
theorem intercalate {wss : List (List Word)} {sign : List Word} (hsign : ClosesBrackets sign)
    (h : ∀ ws ∈ wss, ClosesBrackets ws) : ClosesBrackets (sign.intercalate wss) := by
  induction wss with
  | nil => exact nil
  | cons ws wss ih =>
    obtain ⟨hws, hwss⟩ := List.forall_mem_cons.mp h
    by_cases hnil : wss = []
    · rw [hnil, List.intercalate_singleton]
      exact hws
    · rw [List.intercalate_cons_of_ne_nil hnil]
      exact (hws.append hsign).append (ih hwss)

end ClosesBrackets

/-! ## Tokens of words -/

/-- The tokens of a source have the given words, and none is a comment. -/
def HasWords (tokens : Except LexicalError (List Token)) (ws : List Word) : Prop :=
  ∃ ts, tokens = .ok ts ∧ ts.map Token.word = ws ∧ ∀ t ∈ ts, t.kind ≠ .comment

namespace Layout

/-- The tokens of a text that begins at a layout. -/
def ofText (layout : Layout) (s : Bytes) : Except LexicalError (List Token) :=
  layout.tokens false (Division.ofBytes s).failure (Division.ofBytes s).lexemes

/-- Behind a token of a line, where some blocks and brackets are open. -/
structure InLine (levels : List Nat) (depth : Nat) (layout : Layout) : Prop where
  margin : layout.margin = none
  lineOpen : layout.lineOpen = true
  levels : layout.levels = levels
  depth : layout.depth = depth

/-- In front of a line, behind some blanks. -/
structure AtLine (levels : List Nat) (blanks : Bytes) (layout : Layout) : Prop where
  margin : layout.margin = some blanks
  lineOpen : layout.lineOpen = false
  levels : layout.levels = levels
  depth : layout.depth = 0

variable {layout layout' : Layout} {levels : List Nat} {depth : Nat} {s rest blanks : Bytes}
  {ws ws' : List Word}

/-- The tokens of a lexeme stand in front of those of the lexemes behind it. -/
theorem hasWords_cons {lexeme : Lexeme} {ls : List Lexeme} {emitted : List Token}
    {failure : Option LexicalCause} (hstep : layout.step false lexeme = .ok (emitted, layout'))
    (hemitted : ∀ t ∈ emitted, t.kind ≠ .comment)
    (h : HasWords (layout'.tokens false failure ls) ws) :
    HasWords (layout.tokens false failure (lexeme :: ls)) (emitted.map Token.word ++ ws) := by
  obtain ⟨ts, htokens, hws, hcomment⟩ := h
  refine ⟨emitted ++ ts, ?_, by rw [List.map_append, hws],
    List.forall_mem_append.mpr ⟨hemitted, hcomment⟩⟩
  rw [tokens, hstep]
  show (layout'.tokens false failure ls >>= fun more => Except.ok (emitted ++ more)) = _
  rw [htokens]
  rfl

/-- A text that begins with a lexeme. -/
theorem hasWords_of_next {b : Byte} {t : Bytes} {kind : LexemeKind} {emitted : List Token}
    (hnext : Lexeme.next b (t ++ rest) = .ok (kind, rest))
    (hstep : layout.step false ⟨kind, b :: t⟩ = .ok (emitted, layout'))
    (hemitted : ∀ t ∈ emitted, t.kind ≠ .comment) (h : HasWords (layout'.ofText rest) ws) :
    HasWords (layout.ofText (b :: (t ++ rest))) (emitted.map Token.word ++ ws) := by
  rw [ofText, Division.ofBytes_append hnext]
  exact hasWords_cons hstep hemitted h

/-- Words within a line give their tokens. -/
theorem hasWords_lexemes {ls ls' : List Lexeme} {failure : Option LexicalCause}
    (h : WordLine ls ws) (hlayout : layout.InLine levels depth)
    (hrest : ∀ {layout' : Layout}, layout'.InLine levels (depthBehind depth ws) →
      HasWords (layout'.tokens false failure ls') ws') :
    HasWords (layout.tokens false failure (ls ++ ls')) (ws ++ ws') := by
  induction h generalizing layout depth with
  | nil => exact hrest hlayout
  | blank s _ ih =>
    exact hasWords_cons (step_blank hlayout.margin s) (List.forall_mem_nil _)
      (ih ⟨hlayout.margin, hlayout.lineOpen, hlayout.levels, hlayout.depth⟩ hrest)
  | @token ls ws w hw _ ih =>
    have hline : layout.openLine = .ok ([], layout) := by rw [openLine, hlayout.margin]
    have hword : (layout.token w.kind w.text).word = w := by rw [token, Token.word, hw.spelling]
    have hcons := hasWords_cons (step_token hline w.kind w.text)
      (List.forall_mem_singleton.mpr hw.notComment)
      (ih ⟨hlayout.margin, rfl, hlayout.levels, congrArg (depthAfter · w.kind) hlayout.depth⟩ hrest)
    rw [List.map_singleton, hword] at hcons
    exact hcons

/-- The first word of a line opens it. -/
theorem hasWords_opened {opened : List Token} {w : Word} {b : Byte} {t : Bytes}
    (hopen : layout.openLine = .ok (opened, layout')) (hopened : ∀ t ∈ opened, t.kind ≠ .comment)
    (hmargin : layout'.margin = none) (hlevels : layout'.levels = levels)
    (hdepth : layout'.depth = 0) (hblank : b.isBlank = false)
    (h : Divides (b :: t) rest (w :: ws))
    (hrest : ∀ {layout' : Layout}, layout'.InLine levels (depthBehind 0 (w :: ws)) →
      HasWords (layout'.ofText rest) ws') :
    HasWords (layout.ofText (b :: t)) (opened.map Token.word ++ (w :: ws ++ ws')) := by
  obtain ⟨ls, hls, hline⟩ := h
  cases hline with
  | blank s _ => exact absurd hls (Division.ofBytes_ne_cons_blank hblank _)
  | @token ls _ _ hw hline =>
    rw [ofText, hls, Division.foldr_cons]
    have hstep : layout.step false ⟨.token w.kind, w.text⟩ =
        .ok (opened ++ [layout'.token w.kind w.text],
          { layout' with depth := depthAfter layout'.depth w.kind, lineOpen := true }.advance
            w.text) := by
      rw [step, hopen]
      rfl
    have hword : (layout'.token w.kind w.text).word = w := by rw [token, Token.word, hw.spelling]
    have hcons := hasWords_cons hstep
      (List.forall_mem_append.mpr ⟨hopened, List.forall_mem_singleton.mpr hw.notComment⟩)
      (hasWords_lexemes hline
        ⟨hmargin, rfl, hlevels, congrArg (depthAfter · w.kind) hdepth⟩ hrest)
    rw [List.map_append, List.map_singleton, hword, List.append_assoc] at hcons
    exact hcons

/-- A line whose brackets are closed ends with its line end. -/
theorem hasWords_lineEnd (hlayout : layout.InLine levels 0)
    (hrest : ∀ {layout' : Layout}, layout'.AtLine levels [] → HasWords (layout'.ofText rest) ws) :
    HasWords (layout.ofText (text "\n" ++ rest)) (⟨.newline, text "\n"⟩ :: ws) := by
  have hnext : Lexeme.next Byte.lineFeed ([] ++ rest) = .ok (.lineEnd, rest) := rfl
  have hstep : layout.step false ⟨.lineEnd, [Byte.lineFeed]⟩ =
      .ok ([⟨.newline, text "\n", layout.place, layout.place.nextColumn⟩],
        { layout with margin := some [], lineOpen := false }.advance [Byte.lineFeed]) := by
    rw [step, hlayout.depth, hlayout.lineOpen]
    rfl
  exact hasWords_of_next hnext hstep (List.forall_mem_singleton.mpr (by rintro ⟨⟩))
    (hrest ⟨rfl, rfl, hlayout.levels, hlayout.depth⟩)

/-- The width of spaces is their number. -/
theorem width_spaces (n : Nat) : width (Bytes.spaces n) = n := by
  have hadd : ∀ m, (Bytes.spaces n).foldl (fun n b =>
      if b = Byte.tab then (n / 8 + 1) * 8 else if b = Byte.formFeed then 0 else n + 1) m =
        m + n := by
    induction n with
    | zero => exact fun m => rfl
    | succ n ih =>
      intro m
      rw [Bytes.spaces, List.replicate_succ, List.foldl_cons, if_neg (by decide),
        if_neg (by decide)]
      exact (ih (m + 1)).trans (by omega)
  exact (hadd 0).trans (Nat.zero_add n)

/-- Blanks at the beginning of a line are its margin. -/
theorem hasWords_margin {n : Nat} (hlayout : layout.AtLine levels [])
    (hblank : ∀ b ∈ rest.head?, b.isBlank = false)
    (hrest : ∀ {layout' : Layout}, layout'.AtLine levels (Bytes.spaces (n + 1)) →
      HasWords (layout'.ofText rest) ws) :
    HasWords (layout.ofText (Bytes.spaces (n + 1) ++ rest)) ws := by
  have hdrop : rest.dropWhile Byte.isBlank = rest := by
    cases rest with
    | nil => rfl
    | cons b rest => simp [hblank b rfl]
  have hspaces : ∀ b ∈ Bytes.spaces n, b.isBlank = true := by
    intro b hb
    rw [List.eq_of_mem_replicate hb]
    rfl
  have hnext : Lexeme.next Byte.space (Bytes.spaces n ++ rest) = .ok (.blank, rest) := by
    rw [Lexeme.next, if_pos (by rfl), List.dropWhile_append_of_pos hspaces, hdrop]
  have hstep : layout.step false ⟨.blank, Bytes.spaces (n + 1)⟩ = .ok ([],
      { layout with margin := some (Bytes.spaces (n + 1)) }.advance (Bytes.spaces (n + 1))) := by
    rw [step, hlayout.margin]
    rfl
  exact hasWords_of_next hnext hstep (List.forall_mem_nil _)
    (hrest ⟨rfl, hlayout.lineOpen, hlayout.levels, hlayout.depth⟩)

/-- A line outside of all blocks. -/
theorem hasWords_outer {w : Word} {b : Byte} {t : Bytes} (hlayout : layout.AtLine [] [])
    (hblank : b.isBlank = false) (h : Divides (b :: t) rest (w :: ws))
    (hrest : ∀ {layout' : Layout}, layout'.InLine [] (depthBehind 0 (w :: ws)) →
      HasWords (layout'.ofText rest) ws') :
    HasWords (layout.ofText (b :: t)) (w :: ws ++ ws') := by
  have hopen : layout.openLine = .ok ([], { layout with margin := none }) := by
    obtain ⟨place, levels, depth, margin, lineOpen⟩ := layout
    obtain ⟨rfl, rfl, rfl, rfl⟩ := hlayout
    rfl
  exact hasWords_opened hopen (List.forall_mem_nil _) rfl hlayout.levels hlayout.depth hblank h
    hrest

/-- A line that is indented more than the block around it opens a block of its own. -/
theorem hasWords_deeper {n : Nat} {w : Word} {b : Byte} {t : Bytes}
    (hlayout : layout.AtLine levels []) (hdeeper : levels.headD 0 < n) (hblank : b.isBlank = false)
    (h : Divides (b :: t) rest (w :: ws))
    (hrest : ∀ {layout' : Layout}, layout'.InLine (n :: levels) (depthBehind 0 (w :: ws)) →
      HasWords (layout'.ofText rest) ws') :
    HasWords (layout.ofText (Bytes.spaces n ++ b :: t))
      (⟨.indent, Bytes.spaces n⟩ :: (w :: ws ++ ws')) := by
  obtain ⟨n, rfl⟩ := Nat.exists_eq_add_of_lt (Nat.zero_lt_of_lt hdeeper)
  rw [Nat.zero_add] at hdeeper hrest ⊢
  refine hasWords_margin hlayout (fun c hc => Option.some.inj hc ▸ hblank) fun {inner} hinner => ?_
  have hopen : inner.openLine = .ok
      ([⟨.indent, Bytes.spaces (n + 1), ⟨inner.place.line, 1⟩, inner.place⟩],
        { inner with levels := (n + 1) :: inner.levels, margin := none, lineOpen := true }) := by
    rw [openLine, hinner.margin]
    dsimp only
    rw [width_spaces, if_pos (by rw [level, hinner.levels]; exact hdeeper)]
  exact hasWords_opened hopen (List.forall_mem_singleton.mpr (by rintro ⟨⟩)) rfl
    (congrArg ((n + 1) :: ·) hinner.levels) hinner.depth hblank h hrest

/-- The end of a source closes all blocks. -/
theorem hasWords_end (hlayout : layout.AtLine levels []) :
    HasWords (layout.ofText [])
      (levels.map (fun _ => ⟨.dedent, text "<DEDENT>"⟩) ++ [⟨.endOfInput, []⟩]) := by
  refine ⟨layout.finish, ?_, ?_, ?_⟩
  · rw [ofText, Division.ofBytes]
    rfl
  · rw [finish, hlayout.lineOpen, hlayout.levels]
    simp [Token.word, dedent, mark, Token.empty]
  · rw [finish, hlayout.lineOpen]
    refine List.forall_mem_append.mpr ⟨fun t ht => ?_, List.forall_mem_singleton.mpr (by rintro ⟨⟩)⟩
    obtain ⟨_, -, rfl⟩ := List.mem_map.mp ht
    rintro ⟨⟩

end Layout

/-- The tokens of a source are those of its text from the beginning on. -/
theorem tokenize_cons {b : Byte} (hascii : b.isNonAscii = false) (t : Bytes) :
    tokenize false (b :: t) = Layout.start.ofText (b :: t) := by
  rw [tokenize, dropMark_cons hascii, Layout.ofText]

end SyntaxTree
