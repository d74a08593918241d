import SyntaxTree.Proofs.Grammar.Suite
import SyntaxTree.Proofs.Token.Cover
import SyntaxTree.Proofs.Token.Identifier

/-
# Lines of nested blocks

Blocks of one width are nested in each other.  A line at some depth closes the deeper blocks that
are still open in front of it, or opens the block that it is the first line of.  What is due in
front of a line depends on the lines in front of it, and the lines that follow one another at a
depth, deeper blocks among them, are put together from this.
-/

namespace SyntaxTree

/-- Blanks are no words. -/
theorem Divides.spaces (n : Nat) {rest : Bytes} (hrest : ∀ b ∈ rest.head?, b.isBlank = false) :
    Divides (Bytes.spaces n ++ rest) rest [] := by
  cases n with
  | zero => exact ⟨[], rfl, .nil⟩
  | succ n =>
    have hdrop : rest.dropWhile Byte.isBlank = rest := by
      cases rest with
      | nil => rfl
      | cons b rest => simp [hrest b rfl]
    have hspaces : ∀ b ∈ Bytes.spaces n, b.isBlank = true := by
      intro b hb
      rw [List.eq_of_mem_replicate hb]
      rfl
    have hnext : Lexeme.next Byte.space (Bytes.spaces n ++ rest) = .ok (.blank, rest) := by
      rw [Lexeme.next, if_pos (by rfl), List.dropWhile_append_of_pos hspaces, hdrop]
    exact ⟨[⟨.blank, Byte.space :: Bytes.spaces n⟩], Division.ofBytes_append hnext, .blank _ .nil⟩

namespace Layout

/-! ## Depths -/

/-- The indentations of the blocks around a line, the innermost first, if each is `width` wide. -/
def nested (width : Nat) : (depth : Nat) → List Nat
  | 0 => []
  | depth + 1 => (depth + 1) * width :: nested width depth

/-- The innermost indentation is that of the line. -/
theorem headD_nested (width depth : Nat) : (nested width depth).headD 0 = depth * width := by
  cases depth with
  | zero => exact (Nat.zero_mul width).symm
  | succ depth => rfl

/-- The words that are due in front of a line at a depth: a dedent for each deeper block that is
still open, or the indent of the block that the line opens. -/
inductive IsDue (width : Nat) : (depth : Nat) → (levels : List Nat) → List Word → Prop where
  | dedents {depth : Nat} {deeper : List Nat} (h : ∀ n ∈ deeper, depth * width < n) :
    IsDue width depth (deeper ++ nested width depth) (deeper.map fun _ => Word.dedent)
  | indent (depth : Nat) :
    IsDue width (depth + 1) (nested width depth) [Word.indent ((depth + 1) * width)]

variable {width depth : Nat} {layout : Layout} {levels : List Nat} {due : List Word}

/-- The blocks down to the one of a line are closed. -/
theorem takeWhile_nested {deeper : List Nat} (h : ∀ n ∈ deeper, depth * width < n) :
    (deeper ++ nested width depth).takeWhile (depth * width < ·) = deeper := by
  have hnone : (nested width depth).takeWhile (depth * width < ·) = [] := by
    cases depth with
    | zero => rfl
    | succ depth => exact List.takeWhile_cons_of_neg (by simp)
  rw [List.takeWhile_append_of_pos (by simpa using h), hnone, List.append_nil]

/-- The first token of a line has the words that are due in front of it. -/
theorem exists_openLine (hlayout : layout.AtLine levels (Bytes.spaces (depth * width)))
    (hwidth : 0 < width) (hdue : IsDue width depth levels due) :
    ∃ opened layout', layout.openLine = .ok (opened, layout') ∧ opened.map Token.word = due ∧
      (∀ t ∈ opened, t.kind ≠ .comment) ∧ layout'.margin = none ∧
      layout'.levels = nested width depth ∧ layout'.depth = 0 := by
  cases hdue with
  | @dedents _ deeper hdeeper =>
    have hlevel : ¬ layout.level < depth * width := by
      rw [level, hlayout.levels]
      cases deeper with
      | nil => rw [List.nil_append, headD_nested]; exact Nat.lt_irrefl _
      | cons n deeper => exact Nat.lt_asymm (hdeeper n List.mem_cons_self)
    have hclosed : layout.levels.takeWhile (depth * width < ·) = deeper := by
      rw [hlayout.levels, takeWhile_nested hdeeper]
    have hdrop : layout.levels.drop deeper.length = nested width depth := by
      rw [hlayout.levels, List.drop_left]
    refine ⟨deeper.map fun _ => layout.dedent,
      { layout with levels := nested width depth, margin := none }, ?_,
      by simp [Token.word, dedent, mark, Token.empty, Word.dedent], ?_, rfl, rfl, hlayout.depth⟩
    · rw [openLine, hlayout.margin]
      dsimp only
      rw [width_spaces, if_neg hlevel, hclosed, hdrop]
      exact if_pos (headD_nested width depth)
    · intro t ht
      obtain ⟨_, -, rfl⟩ := List.mem_map.mp ht
      rintro ⟨⟩
  | indent depth =>
    have hlevel : layout.level < (depth + 1) * width := by
      rw [level, hlayout.levels, headD_nested, Nat.succ_mul]
      omega
    refine ⟨[⟨.indent, Bytes.spaces ((depth + 1) * width), ⟨layout.place.line, 1⟩, layout.place⟩],
      { layout with
        levels := (depth + 1) * width :: layout.levels, margin := none, lineOpen := true },
      ?_, rfl, List.forall_mem_singleton.mpr (by rintro ⟨⟩), rfl, congrArg _ hlayout.levels,
      hlayout.depth⟩
    rw [openLine, hlayout.margin]
    dsimp only
    rw [width_spaces, if_pos hlevel]

/-! ## Words within a line -/

/-- Words in a line give their tokens. -/
theorem hasWords_within {s rest : Bytes} {n : Nat} {ws ws' : List Word}
    (hlayout : layout.InLine levels n) (h : Divides s rest ws)
    (hrest : ∀ {layout' : Layout}, layout'.InLine levels (depthBehind n ws) →
      HasWords (layout'.ofText rest) ws') :
    HasWords (layout.ofText s) (ws ++ ws') := by
  obtain ⟨ls, hls, hline⟩ := h
  rw [ofText, hls, Division.foldr_cons]
  exact hasWords_lexemes hline hlayout hrest

/-- A line end between brackets is no token. -/
theorem hasWords_innerEnd {rest : Bytes} {n : Nat} {ws : List Word}
    (hlayout : layout.InLine levels (n + 1))
    (hrest : ∀ {layout' : Layout}, layout'.InLine levels (n + 1) →
      HasWords (layout'.ofText rest) ws) :
    HasWords (layout.ofText (text "\n" ++ rest)) ws := by
  have hnext : Lexeme.next Byte.lineFeed ([] ++ rest) = .ok (.lineEnd, rest) := rfl
  have hstep : layout.step false ⟨.lineEnd, [Byte.lineFeed]⟩ =
      .ok ([], layout.advance [Byte.lineFeed]) := by
    rw [step, hlayout.depth]
    rfl
  exact hasWords_of_next hnext hstep (List.forall_mem_nil _)
    (hrest ⟨hlayout.margin, hlayout.lineOpen, hlayout.levels, hlayout.depth⟩)

/-! ## Lines -/

/-- A text that is one line at a depth, and its words.  The brackets of the line are closed where it
ends. -/
def IsLineAt (width depth : Nat) (s : Bytes) (ws : List Word) : Prop :=
  ∀ ⦃rest : Bytes⦄ ⦃ws' : List Word⦄,
    (∀ {layout : Layout}, layout.AtLine (nested width depth) [] →
      HasWords (layout.ofText rest) ws') →
    ∀ {layout : Layout} {levels : List Nat} {due : List Word}, layout.AtLine levels [] →
      IsDue width depth levels due → HasWords (layout.ofText (s ++ rest)) (due ++ (ws ++ ws'))

/-- The blanks and the first words of a line. -/
theorem hasWords_opening (hwidth : 0 < width) {b : Byte} {t rest : Bytes} {w : Word}
    {ws ws' : List Word} (hblank : b.isBlank = false) (h : Divides (b :: t) rest (w :: ws))
    (hlayout : layout.AtLine levels []) (hdue : IsDue width depth levels due)
    (hrest : ∀ {layout' : Layout}, layout'.InLine (nested width depth) (depthBehind 0 (w :: ws)) →
      HasWords (layout'.ofText rest) ws') :
    HasWords (layout.ofText (Bytes.spaces (depth * width) ++ b :: t))
      (due ++ (w :: ws ++ ws')) := by
  have hopened {layout : Layout} (hlayout : layout.AtLine levels (Bytes.spaces (depth * width))) :
      HasWords (layout.ofText (b :: t)) (due ++ (w :: ws ++ ws')) := by
    obtain ⟨opened, layout', hopen, rfl, hcomment, hmargin, hlevels, hdepth⟩ :=
      exists_openLine hlayout hwidth hdue
    exact hasWords_opened hopen hcomment hmargin hlevels hdepth hblank h hrest
  cases hn : depth * width with
  | zero =>
    rw [hn] at hopened
    exact hopened hlayout
  | succ n =>
    rw [hn] at hopened
    exact hasWords_margin hlayout (fun c hc => Option.some.inj hc ▸ hblank) hopened

/-- A line of words that close their brackets. -/
theorem IsLineAt.of_divides (hwidth : 0 < width) {b : Byte} {t : Bytes} {w : Word} {ws : List Word}
    (hblank : b.isBlank = false)
    (h : ∀ rest, Divides (b :: t ++ (text "\n" ++ rest)) (text "\n" ++ rest) (w :: ws))
    (hclosed : ClosesBrackets (w :: ws)) (depth : Nat) :
    IsLineAt width depth (Bytes.spaces (depth * width) ++ (b :: t) ++ text "\n")
      (w :: ws ++ [Word.newline]) := by
  intro rest ws' hrest layout levels due hlayout hdue
  rw [List.append_assoc, List.append_assoc, List.append_assoc]
  refine hasWords_opening hwidth hblank (h rest) hlayout hdue fun hlayout => ?_
  exact hasWords_lineEnd (hclosed 0 ▸ hlayout) hrest

/-- A line that opens a bracket, one within the bracket and one that closes it are a single line. -/
theorem isLineAt_split (hwidth : 0 < width) {b : Byte} {t : Bytes} {w : Word} {front : List Word}
    (hblank : b.isBlank = false)
    (hopen : ∀ rest, Divides (b :: t ++ (text "\n" ++ rest)) (text "\n" ++ rest) (w :: front))
    (hdepth : depthBehind 0 (w :: front) = 1) {inner : Bytes} {ws : List Word}
    (hinner : ∀ rest, Divides (inner ++ (text "\n" ++ rest)) (text "\n" ++ rest) ws)
    (hclosed : ClosesBrackets ws) {last : Bytes} {back : List Word}
    (hclose : ∀ rest, Divides (last ++ (text "\n" ++ rest)) (text "\n" ++ rest) back)
    (hback : depthBehind 1 back = 0) (depth : Nat) :
    IsLineAt width depth
      (Bytes.spaces (depth * width) ++ (b :: t) ++ text "\n" ++ (inner ++ text "\n") ++
        (last ++ text "\n"))
      (w :: front ++ (ws ++ (back ++ [Word.newline]))) := by
  intro rest ws' hrest layout levels due hlayout hdue
  simp only [List.append_assoc]
  refine hasWords_opening hwidth hblank (hopen _) hlayout hdue fun hlayout => ?_
  rw [hdepth] at hlayout
  refine hasWords_innerEnd hlayout fun hlayout => ?_
  refine hasWords_within hlayout (hinner _) fun hlayout => ?_
  rw [hclosed] at hlayout
  refine hasWords_innerEnd hlayout fun hlayout => ?_
  refine hasWords_within hlayout (hclose _) fun hlayout => ?_
  rw [hback] at hlayout
  exact hasWords_lineEnd hlayout hrest

/-! ## Lines one after the other -/

/-- A text that goes on at a depth, whatever deeper blocks are still open in front of it. -/
def Resumes (width depth : Nat) (rest : Bytes) (ws : List Word) : Prop :=
  ∀ ⦃layout : Layout⦄ ⦃deeper : List Nat⦄, (∀ n ∈ deeper, depth * width < n) →
    layout.AtLine (deeper ++ nested width depth) [] →
    HasWords (layout.ofText rest) (deeper.map (fun _ => Word.dedent) ++ ws)

/-- A text that is a sequence of lines at a depth with deeper blocks among them, and its words. -/
def AreLinesAt (width depth : Nat) (s : Bytes) (ws : List Word) : Prop :=
  ∀ ⦃rest : Bytes⦄ ⦃ws' : List Word⦄, Resumes width depth rest ws' →
    ∀ {layout : Layout} {levels : List Nat} {due : List Word}, layout.AtLine levels [] →
      IsDue width depth levels due → HasWords (layout.ofText (s ++ rest)) (due ++ (ws ++ ws'))

variable {s s' : Bytes} {ws ws' : List Word}

theorem IsLineAt.areLines (h : IsLineAt width depth s ws) : AreLinesAt width depth s ws :=
  fun _ _ hrest => h fun hlayout => hrest (List.forall_mem_nil _) hlayout

theorem AreLinesAt.resumes (h : AreLinesAt width depth s ws) {rest : Bytes}
    (hrest : Resumes width depth rest ws') : Resumes width depth (s ++ rest) (ws ++ ws') :=
  fun _ _ hdeeper hlayout => h hrest hlayout (.dedents hdeeper)

theorem AreLinesAt.append (h : AreLinesAt width depth s ws) (h' : AreLinesAt width depth s' ws') :
    AreLinesAt width depth (s ++ s') (ws ++ ws') := by
  intro rest ws'' hrest layout levels due hlayout hdue
  rw [List.append_assoc, List.append_assoc]
  exact h (h'.resumes hrest) hlayout hdue

/-- What goes on at a depth goes on behind a deeper block, which has been closed then. -/
theorem Resumes.deeper (hwidth : 0 < width) {rest : Bytes} (h : Resumes width depth rest ws) :
    Resumes width (depth + 1) rest (Word.dedent :: ws) := by
  intro layout deeper hdeeper hlayout
  have hlt : depth * width < (depth + 1) * width := by
    rw [Nat.succ_mul]
    omega
  have hmore : ∀ n ∈ deeper ++ [(depth + 1) * width], depth * width < n :=
    List.forall_mem_append.mpr
      ⟨fun n hn => Nat.lt_trans hlt (hdeeper n hn), List.forall_mem_singleton.mpr hlt⟩
  rw [nested, List.append_cons] at hlayout
  have hwords := h hmore hlayout
  rwa [List.map_append, List.append_assoc] at hwords

/-- A line and the block that it is the header of. -/
theorem IsLineAt.block (hwidth : 0 < width) (h : IsLineAt width depth s ws)
    (hblock : AreLinesAt width (depth + 1) s' ws') :
    AreLinesAt width depth (s ++ s')
      (ws ++ (Word.indent ((depth + 1) * width) :: (ws' ++ [Word.dedent]))) := by
  intro rest ws'' hrest layout levels due hlayout hdue
  have hinner {layout : Layout} (hlayout : layout.AtLine (nested width depth) []) :
      HasWords (layout.ofText (s' ++ rest))
        ([Word.indent ((depth + 1) * width)] ++ (ws' ++ (Word.dedent :: ws''))) :=
    hblock (hrest.deeper hwidth) hlayout (.indent depth)
  have hwords := h hinner hlayout hdue
  rw [List.append_assoc]
  simpa using hwords

/-- The end of a source closes all blocks. -/
theorem resumes_end (width : Nat) : Resumes width 0 [] [Word.final] := by
  intro layout deeper _ hlayout
  have hwords := hasWords_end hlayout
  rwa [nested, List.append_nil] at hwords

/-- A source that is divided into words as it is has no mark of its encoding. -/
theorem dropMark_of_hasWords (h : HasWords (start.ofText s) ws) : dropMark s = s := by
  obtain ⟨mark, hs, rfl | rfl⟩ := exists_append_dropMark s
  · exact hs.symm
  · exfalso
    obtain ⟨ts, htokens, -⟩ := h
    have hstart : Unicode.isIdentifierStart 0xFEFF = false := by decide +kernel
    have hmark : Utf8.decode? [0xEF, 0xBB, 0xBF] = some (0xFEFF, []) := by decide +kernel
    have hdecode := Utf8.decode?_append hmark (dropMark s)
    simp only [List.cons_append, List.nil_append] at hdecode
    have hname : Lexeme.afterToken 0xEF (0xBB :: 0xBF :: dropMark s) =
        .error (.invalidCode 0xFEFF) := by
      rw [Lexeme.afterToken, if_neg (by exact Bool.false_ne_true), if_pos (by exact rfl),
        Lexeme.afterName, if_pos (by decide), hdecode]
      dsimp only
      rw [if_neg (by rw [hstart]; exact Bool.false_ne_true)]
    have hnext : Lexeme.next 0xEF (0xBB :: 0xBF :: dropMark s) = .error (.invalidCode 0xFEFF) := by
      rw [Lexeme.next, if_neg (by decide), if_neg (by decide), if_neg (by decide),
        if_neg (by decide), hname]
      rfl
    have hdivision : Division.ofBytes s = ⟨[], some (.invalidCode 0xFEFF)⟩ := by
      rw [hs]
      show Division.ofBytes (0xEF :: 0xBB :: 0xBF :: dropMark s) = _
      rw [Division.ofBytes]
      split
      · next h => rw [hnext] at h; cases h; rfl
      · next h => rw [hnext] at h; cases h
    rw [ofText, hdivision] at htokens
    cases htokens

/-- The words of a whole source. -/
theorem AreLinesAt.hasWords (h : AreLinesAt width 0 s ws) :
    HasWords (tokenize false s) (ws ++ [Word.final]) := by
  have hstart : start.AtLine ([] ++ nested width 0) [] := ⟨rfl, rfl, rfl, rfl⟩
  have hwords := h (resumes_end width) hstart (.dedents (List.forall_mem_nil _))
  rw [List.append_nil] at hwords
  rw [tokenize, dropMark_of_hasWords hwords]
  exact hwords

end Layout

end SyntaxTree
