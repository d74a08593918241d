import Mathlib.Data.List.Chain
import SyntaxTree.Proofs.Token.Run

/-
# Layout tokens are well bracketed

Reading tokens in order, one keeps count of the open blocks and the open brackets and of whether the
logical line has a token.  Layout tokens stand only where these counts allow them, and behind each
lexeme the counts are those of the layout.
-/

namespace SyntaxTree

/-! ## Counts along a list of tokens -/

section Along

variable {σ : Type} (after : σ → TokenKind → σ) (allows : σ → TokenKind → Prop)

/-- The count behind a list of tokens. -/
def countBehind (count : σ) (ts : List Token) : σ := ts.foldl (fun n t => after n t.kind) count

/-- Each token stands where the count of those in front of it allows it. -/
def Along : σ → List Token → Prop
  | _, [] => True
  | count, t :: ts => allows count t.kind ∧ Along (after count t.kind) ts

variable {after allows}

@[simp]
theorem countBehind_nil (count : σ) : countBehind after count [] = count := rfl

@[simp]
theorem countBehind_cons (count : σ) (t : Token) (ts : List Token) :
    countBehind after count (t :: ts) = countBehind after (after count t.kind) ts := rfl

@[simp]
theorem countBehind_append (count : σ) (ts us : List Token) :
    countBehind after count (ts ++ us) = countBehind after (countBehind after count ts) us :=
  List.foldl_append

@[simp]
theorem along_nil (count : σ) : Along after allows count [] := trivial

@[simp]
theorem along_cons {count : σ} {t : Token} {ts : List Token} :
    Along after allows count (t :: ts) ↔
      allows count t.kind ∧ Along after allows (after count t.kind) ts := Iff.rfl

@[simp]
theorem along_append {count : σ} {ts us : List Token} :
    Along after allows count (ts ++ us) ↔
      Along after allows count ts ∧ Along after allows (countBehind after count ts) us := by
  induction ts generalizing count with
  | nil => simp
  | cons t ts ih => simp [ih, and_assoc]

/-- A token stands where the count of those in front of it allows it. -/
theorem Along.allows_of_eq_append {count : σ} {ts front back : List Token} {t : Token}
    (h : Along after allows count ts) (hts : ts = front ++ t :: back) :
    allows (countBehind after count front) t.kind := by
  subst hts
  exact (along_append.mp h).2.1

end Along

namespace Layout

/-- On a line that has not begun, no bracket is open and no token has been read. -/
def IsSound (layout : Layout) : Prop :=
  layout.margin.isSome → layout.depth = 0 ∧ layout.lineOpen = false

theorem isSound_start : start.IsSound := fun _ => ⟨rfl, rfl⟩

/-- A layout whose line has begun is sound. -/
theorem isSound_of_margin_eq_none {layout : Layout} (h : layout.margin = none) : layout.IsSound :=
  fun hsome => absurd hsome (by simp [h])

theorem Adds.isSound {keepComments : Bool} {layout layout' : Layout} {lexeme : Lexeme}
    {emitted : List Token} (h : Adds keepComments layout lexeme emitted layout')
    (hsound : layout.IsSound) : layout'.IsSound := by
  cases h with
  | blank s =>
    intro hsome
    exact hsound ((Option.isSome_map ..).symm.trans hsome)
  | comment s => exact hsound
  | lineEnd s hdepth => exact fun _ => ⟨hdepth, rfl⟩
  | innerEnd s hdepth => exact hsound
  | join s hopens => exact isSound_of_margin_eq_none hopens.margin_eq_none
  | token s hkind hopens => exact isSound_of_margin_eq_none hopens.margin_eq_none

/-- What each lexeme keeps of a count, a run keeps. -/
theorem Run.along {σ : Type} {after : σ → TokenKind → σ} {allows : σ → TokenKind → Prop}
    (count : Layout → σ) {keepComments : Bool}
    (hadds : ∀ {layout layout' : Layout} {lexeme : Lexeme} {emitted : List Token},
      Adds keepComments layout lexeme emitted layout' → layout.IsSound →
        Along after allows (count layout) emitted ∧
          countBehind after (count layout) emitted = count layout')
    {s : Bytes} {layout final : Layout} {body : List Token}
    (h : Run keepComments s layout body final) (hsound : layout.IsSound) :
    Along after allows (count layout) body ∧
      countBehind after (count layout) body = count final := by
  induction h with
  | nil => exact ⟨trivial, rfl⟩
  | cons _ hstep _ ih =>
    obtain ⟨hemitted, hcount⟩ := hadds hstep hsound
    obtain ⟨hmore, hfinal⟩ := ih (hstep.isSound hsound)
    rw [along_append, countBehind_append, hcount]
    exact ⟨⟨hemitted, hmore⟩, hfinal⟩

/-! ## Open blocks -/

/-- How many blocks are open behind a token. -/
def blocksAfter (blocks : Nat) : TokenKind → Nat
  | .indent => blocks + 1
  | .dedent => blocks - 1
  | _ => blocks

/-- A block ends only where one is open. -/
def AllowsBlock (blocks : Nat) (kind : TokenKind) : Prop := kind = .dedent → 0 < blocks

theorem blocksAfter_of_isProper {kind : TokenKind} (h : kind.isProper) (blocks : Nat) :
    blocksAfter blocks kind = blocks ∧ AllowsBlock blocks kind := by
  cases kind <;> first | exact absurd h (by decide) | exact ⟨rfl, fun h => by cases h⟩

/-- Of the open blocks, as many end as there are tokens that end one. -/
theorem along_dedents {α : Type} (closed : List α) (layout : Layout) {blocks : Nat}
    (h : closed.length ≤ blocks) :
    Along blocksAfter AllowsBlock blocks (closed.map fun _ => layout.dedent) ∧
      countBehind blocksAfter blocks (closed.map fun _ => layout.dedent) =
        blocks - closed.length := by
  induction closed generalizing blocks with
  | nil => exact ⟨trivial, rfl⟩
  | cons _ closed ih =>
    rw [List.length_cons] at h
    obtain ⟨halong, hcount⟩ := ih (show closed.length ≤ blocks - 1 by omega)
    refine ⟨⟨fun _ => by omega, halong⟩, ?_⟩
    rw [List.map_cons, countBehind_cons, List.length_cons]
    exact hcount.trans (by omega)

theorem Opens.blocks {layout opened : Layout} {emitted : List Token}
    (h : layout.Opens emitted opened) :
    Along blocksAfter AllowsBlock layout.levels.length emitted ∧
      countBehind blocksAfter layout.levels.length emitted = opened.levels.length := by
  cases h with
  | begun hmargin => exact ⟨trivial, rfl⟩
  | deeper hmargin => exact ⟨⟨by rintro ⟨⟩, trivial⟩, rfl⟩
  | shallower closed kept hmargin hlevels =>
    have hlength : layout.levels.length = closed.length + kept.length := by
      rw [hlevels, List.length_append]
    obtain ⟨halong, hcount⟩ :=
      along_dedents closed layout (show closed.length ≤ layout.levels.length by omega)
    exact ⟨halong, hcount.trans (show _ = kept.length by omega)⟩

theorem Adds.blocks {keepComments : Bool} {layout layout' : Layout} {lexeme : Lexeme}
    {emitted : List Token} (h : Adds keepComments layout lexeme emitted layout') :
    Along blocksAfter AllowsBlock layout.levels.length emitted ∧
      countBehind blocksAfter layout.levels.length emitted = layout'.levels.length := by
  cases h with
  | blank s => exact ⟨trivial, rfl⟩
  | comment s =>
    cases keepComments with
    | false => exact ⟨trivial, rfl⟩
    | true => exact ⟨⟨by rintro ⟨⟩, trivial⟩, rfl⟩
  | lineEnd s hdepth =>
    split
    · exact ⟨⟨by rintro ⟨⟩, trivial⟩, rfl⟩
    · exact ⟨trivial, rfl⟩
  | innerEnd s hdepth => exact ⟨trivial, rfl⟩
  | join s hopens => exact hopens.blocks
  | token s hkind hopens =>
    obtain ⟨halong, hcount⟩ := hopens.blocks
    have hblocks := blocksAfter_of_isProper hkind
    rw [along_append, countBehind_append, hcount]
    exact ⟨⟨halong, (hblocks _).2, trivial⟩, (hblocks _).1⟩

/-! ## Open brackets -/

/-- A layout token stands outside of brackets. -/
def AllowsBracket (depth : Nat) (kind : TokenKind) : Prop := kind.isLayout → depth = 0

theorem allowsBracket_of_isProper {kind : TokenKind} (h : kind.isProper) (depth : Nat) :
    AllowsBracket depth kind :=
  fun hlayout => absurd hlayout (by simp [TokenKind.isLayout_of_isProper h])

/-- Layout tokens outside of brackets leave no bracket open. -/
theorem along_of_isLayout {ts : List Token} (h : ∀ t ∈ ts, t.kind.isLayout) :
    Along depthAfter AllowsBracket 0 ts ∧ countBehind depthAfter 0 ts = 0 := by
  induction ts with
  | nil => exact ⟨trivial, rfl⟩
  | cons t ts ih =>
    obtain ⟨ht, hts⟩ := List.forall_mem_cons.mp h
    have hdepth : depthAfter 0 t.kind = 0 := by
      cases hkind : t.kind <;> first | rfl | exact absurd (hkind ▸ ht) (by decide)
    simp only [along_cons, countBehind_cons, hdepth]
    exact ⟨⟨fun _ => rfl, (ih hts).1⟩, (ih hts).2⟩

theorem Opens.isLayout {layout opened : Layout} {emitted : List Token}
    (h : layout.Opens emitted opened) : ∀ t ∈ emitted, t.kind.isLayout := by
  intro t ht
  rcases h.kind_of_mem t ht with hkind | hkind <;> simp [hkind, TokenKind.isLayout]

theorem Opens.depth_eq {layout opened : Layout} {emitted : List Token}
    (h : layout.Opens emitted opened) : opened.depth = layout.depth := by
  cases h <;> rfl

/-- A line that begins with layout tokens begins outside of brackets. -/
theorem Opens.brackets {layout opened : Layout} {emitted : List Token}
    (h : layout.Opens emitted opened) (hsound : layout.IsSound) :
    Along depthAfter AllowsBracket layout.depth emitted ∧
      countBehind depthAfter layout.depth emitted = opened.depth := by
  by_cases hmargin : layout.margin.isSome
  · rw [h.depth_eq, (hsound hmargin).1]
    exact along_of_isLayout h.isLayout
  · cases h with
    | begun => exact ⟨trivial, rfl⟩
    | deeper hsome => exact absurd (by simp [hsome]) hmargin
    | shallower closed kept hsome hlevels => exact absurd (by simp [hsome]) hmargin

theorem Adds.brackets {keepComments : Bool} {layout layout' : Layout} {lexeme : Lexeme}
    {emitted : List Token} (h : Adds keepComments layout lexeme emitted layout')
    (hsound : layout.IsSound) :
    Along depthAfter AllowsBracket layout.depth emitted ∧
      countBehind depthAfter layout.depth emitted = layout'.depth := by
  cases h with
  | blank s => exact ⟨trivial, rfl⟩
  | comment s =>
    cases keepComments with
    | false => exact ⟨trivial, rfl⟩
    | true => exact ⟨⟨by rintro ⟨⟩, trivial⟩, rfl⟩
  | lineEnd s hdepth =>
    split
    · exact ⟨⟨fun _ => hdepth, trivial⟩, rfl⟩
    · exact ⟨trivial, rfl⟩
  | innerEnd s hdepth => exact ⟨trivial, rfl⟩
  | join s hopens => exact hopens.brackets hsound
  | token s hkind hopens =>
    obtain ⟨halong, hcount⟩ := hopens.brackets hsound
    rw [along_append, countBehind_append, hcount]
    exact ⟨⟨halong, allowsBracket_of_isProper hkind _, trivial⟩, rfl⟩

/-! ## Open lines -/

/-- Whether the logical line has a token behind one.  The end of a block is none of its line. -/
def lineAfter (lineOpen : Bool) : TokenKind → Bool
  | .newline | .dedent => false
  | .comment => lineOpen
  | _ => true

/-- Only a line with a token ends. -/
def AllowsLine (lineOpen : Bool) (kind : TokenKind) : Prop := kind = .newline → lineOpen = true

theorem lineAfter_of_isProper {kind : TokenKind} (h : kind.isProper) (lineOpen : Bool) :
    lineAfter lineOpen kind = true ∧ AllowsLine lineOpen kind := by
  cases kind <;> first | exact absurd h (by decide) | exact ⟨rfl, fun h => by cases h⟩

theorem along_dedents_line {α : Type} (closed : List α) (layout : Layout) :
    Along lineAfter AllowsLine false (closed.map fun _ => layout.dedent) ∧
      countBehind lineAfter false (closed.map fun _ => layout.dedent) = false := by
  induction closed with
  | nil => exact ⟨trivial, rfl⟩
  | cons _ closed ih => exact ⟨⟨by rintro ⟨⟩, ih.1⟩, ih.2⟩

theorem Opens.lines {layout opened : Layout} {emitted : List Token}
    (h : layout.Opens emitted opened) (hsound : layout.IsSound) :
    Along lineAfter AllowsLine layout.lineOpen emitted ∧
      countBehind lineAfter layout.lineOpen emitted = opened.lineOpen := by
  cases h with
  | begun hmargin => exact ⟨trivial, rfl⟩
  | deeper hmargin => exact ⟨⟨by rintro ⟨⟩, trivial⟩, rfl⟩
  | shallower closed kept hmargin hlevels =>
    rw [(hsound (by simp [hmargin])).2]
    exact along_dedents_line closed layout

theorem Adds.lines {keepComments : Bool} {layout layout' : Layout} {lexeme : Lexeme}
    {emitted : List Token} (h : Adds keepComments layout lexeme emitted layout')
    (hsound : layout.IsSound) :
    Along lineAfter AllowsLine layout.lineOpen emitted ∧
      countBehind lineAfter layout.lineOpen emitted = layout'.lineOpen := by
  cases h with
  | blank s => exact ⟨trivial, rfl⟩
  | comment s =>
    cases keepComments with
    | false => exact ⟨trivial, rfl⟩
    | true => exact ⟨⟨by rintro ⟨⟩, trivial⟩, rfl⟩
  | lineEnd s hdepth =>
    split
    · next hopen => exact ⟨⟨fun _ => hopen, trivial⟩, rfl⟩
    · next hclosed => exact ⟨trivial, (Bool.not_eq_true _).mp hclosed⟩
  | innerEnd s hdepth => exact ⟨trivial, rfl⟩
  | join s hopens => exact hopens.lines hsound
  | token s hkind hopens =>
    obtain ⟨halong, hcount⟩ := hopens.lines hsound
    have hline := lineAfter_of_isProper hkind
    rw [along_append, countBehind_append, hcount]
    exact ⟨⟨halong, (hline _).2, trivial⟩, (hline _).1⟩

/-! ## The end of a source -/

/-- The blocks that the end of a source ends are those that are open there. -/
theorem finish_blocks (layout : Layout) :
    Along blocksAfter AllowsBlock layout.levels.length layout.finish ∧
      countBehind blocksAfter layout.levels.length layout.finish = 0 := by
  obtain ⟨halong, hcount⟩ := along_dedents layout.levels layout Nat.le.refl
  have hend : AllowsBlock 0 .endOfInput := by rintro ⟨⟩
  have hnewline : AllowsBlock layout.levels.length .newline := by rintro ⟨⟩
  rw [Nat.sub_self] at hcount
  rw [List.map_const'] at halong hcount
  unfold finish
  split <;> simp [mark, Token.empty, blocksAfter, halong, hcount, hend, hnewline]

/-- The last line ends only if it has a token. -/
theorem finish_lines (layout : Layout) :
    Along lineAfter AllowsLine layout.lineOpen layout.finish := by
  obtain ⟨halong, hcount⟩ := along_dedents_line layout.levels layout
  rw [List.map_const'] at halong hcount
  unfold finish
  cases hopen : layout.lineOpen <;>
    simp [mark, Token.empty, lineAfter, AllowsLine, halong, hcount]

/-- The end of the input comes last, and once. -/
theorem exists_finish_eq_append (layout : Layout) :
    ∃ closing final, layout.finish = closing ++ [final] ∧ final.kind = .endOfInput ∧
      ∀ t ∈ closing, t.kind ≠ .endOfInput := by
  refine ⟨_, _, rfl, rfl, fun t ht => ?_⟩
  rcases List.mem_append.mp ht with hnewline | hdedent
  · split at hnewline
    · rw [List.mem_singleton.mp hnewline]
      rintro ⟨⟩
    · simp at hnewline
  · obtain ⟨_, -, rfl⟩ := List.mem_map.mp hdedent
    rintro ⟨⟩

/-- No lexeme is the end of the input. -/
theorem Adds.kind_ne_endOfInput {keepComments : Bool} {layout layout' : Layout} {lexeme : Lexeme}
    {emitted : List Token} (h : Adds keepComments layout lexeme emitted layout') :
    ∀ t ∈ emitted, t.kind ≠ .endOfInput := by
  have hopens : ∀ {layout opened : Layout} {emitted : List Token}, layout.Opens emitted opened →
      ∀ t ∈ emitted, t.kind ≠ .endOfInput := fun hopens t ht hkind =>
    absurd (hopens.isLayout t ht) (by rw [hkind]; decide)
  cases h with
  | blank s => simp
  | comment s => cases keepComments <;> simp [Layout.token]
  | lineEnd s hdepth => split <;> simp
  | innerEnd s hdepth => simp
  | join s h => exact hopens h
  | token s hkind h =>
    refine List.forall_mem_append.mpr ⟨hopens h, List.forall_mem_singleton.mpr ?_⟩
    rintro rfl
    exact absurd hkind (by decide)

theorem Run.kind_ne_endOfInput {keepComments : Bool} {s : Bytes} {layout final : Layout}
    {body : List Token} (h : Run keepComments s layout body final) :
    ∀ t ∈ body, t.kind ≠ .endOfInput := by
  induction h with
  | nil => simp
  | cons _ hstep _ ih => exact List.forall_mem_append.mpr ⟨hstep.kind_ne_endOfInput, ih⟩

/-! ## From counts to lists -/

/-- Along a list that ends no block too many, the counts of both kinds of tokens give the number of
open blocks. -/
theorem countBehind_blocks {blocks : Nat} {ts : List Token}
    (h : Along blocksAfter AllowsBlock blocks ts) :
    countBehind blocksAfter blocks ts + ts.countP (·.kind = .dedent) =
      blocks + ts.countP (·.kind = .indent) := by
  induction ts generalizing blocks with
  | nil => rfl
  | cons t ts ih =>
    obtain ⟨ht, hts⟩ := h
    have hcount := ih hts
    rw [countBehind_cons, List.countP_cons, List.countP_cons]
    by_cases hindent : t.kind = .indent
    · simp only [hindent, blocksAfter] at hcount ⊢
      simp
      omega
    by_cases hdedent : t.kind = .dedent
    · have hpos := ht hdedent
      simp only [hdedent, blocksAfter] at hcount ⊢
      simp
      omega
    have hsame : blocksAfter blocks t.kind = blocks := by grind [blocksAfter]
    rw [hsame] at hcount ⊢
    simpa [hindent, hdedent] using hcount

/-- Comments aside, a line ends only behind one of its tokens. -/
theorem isChain_of_along {lineOpen : Bool} {ts : List Token}
    (h : Along lineAfter AllowsLine lineOpen ts) :
    (∀ t ∈ (ts.filter (·.kind ≠ .comment)).head?, t.kind = .newline → lineOpen = true) ∧
      (ts.filter (·.kind ≠ .comment)).IsChain fun t t' =>
        t'.kind = .newline → t.kind ≠ .newline ∧ t.kind ≠ .dedent := by
  induction ts generalizing lineOpen with
  | nil => simp
  | cons t ts ih =>
    obtain ⟨ht, hts⟩ := h
    obtain ⟨hhead, hchain⟩ := ih hts
    by_cases hcomment : t.kind = .comment
    · rw [hcomment] at hhead
      rw [List.filter_cons_of_neg (by simp [hcomment])]
      exact ⟨hhead, hchain⟩
    · rw [List.filter_cons_of_pos (by simp [hcomment])]
      refine ⟨fun t' ht' hnewline => ?_, List.isChain_cons.mpr ⟨fun t' ht' hnewline => ?_, hchain⟩⟩
      · obtain rfl : t = t' := by simpa using ht'
        exact ht hnewline
      · -- Behind a line end or the end of a block the line is not open.
        have hopen := hhead t' ht' hnewline
        constructor <;> (intro hkind; rw [hkind] at hopen; cases hopen)

end Layout

/-! ## The tokens of a source -/

/-- Only the last token ends the input. -/
theorem exists_final_of_tokenize {keepComments : Bool} {source : Bytes} {tokens : List Token}
    (h : tokenize keepComments source = .ok tokens) :
    ∃ body final, tokens = body ++ [final] ∧ final.kind = .endOfInput ∧
      ∀ t ∈ body, t.kind ≠ .endOfInput := by
  obtain ⟨body, layout, rfl, hrun⟩ := exists_run_of_tokenize h
  obtain ⟨closing, final, hfinish, hfinal, hclosing⟩ := layout.exists_finish_eq_append
  refine ⟨body ++ closing, final, by rw [hfinish, List.append_assoc], hfinal, ?_⟩
  exact List.forall_mem_append.mpr ⟨hrun.kind_ne_endOfInput, hclosing⟩

/-- How many brackets are open behind tokens of these kinds.  A closing bracket counts only where
one is open. -/
def openBrackets (kinds : List TokenKind) : Nat :=
  kinds.foldl (fun count kind =>
    if kind ∈ [.openParen, .openBracket, .openBrace] then count + 1
    else if kind ∈ [.closeParen, .closeBracket, .closeBrace] then count - 1
    else count) 0

/-- The division into tokens keeps count of the open brackets. -/
theorem countBehind_depthAfter (ts : List Token) :
    countBehind Layout.depthAfter 0 ts = openBrackets (ts.map Token.kind) := by
  rw [countBehind, openBrackets, List.foldl_map]
  congr 1
  funext depth t
  cases hkind : t.kind <;> rfl

/-- A list of tokens whose layout is well bracketed. -/
structure WellBracketed (tokens : List Token) : Prop where
  /-- The end of the input comes last, and nowhere else. -/
  endOfInput_last : ∃ body final, tokens = body ++ [final] ∧ final.kind = .endOfInput ∧
    ∀ t ∈ body, t.kind ≠ .endOfInput
  /-- No block ends before it begins. -/
  dedents_le : ∀ front, front <+: tokens →
    front.countP (·.kind = .dedent) ≤ front.countP (·.kind = .indent)
  /-- Every block ends. -/
  dedents_eq : tokens.countP (·.kind = .dedent) = tokens.countP (·.kind = .indent)
  /-- Layout tokens stand outside of brackets, apart from those at the end of the input. -/
  outside : ∃ body final, tokens = body ++ Layout.finish final ∧
    ∀ front t back, body = front ++ t :: back → t.kind.isLayout →
      openBrackets (front.map Token.kind) = 0
  /-- Comments aside, the first token ends no line. -/
  newline_not_first : ∀ t ∈ (tokens.filter (·.kind ≠ .comment)).head?, t.kind ≠ .newline
  /-- Comments aside, no line ends directly behind a line end or the end of a block. -/
  newline_behind : (tokens.filter (·.kind ≠ .comment)).IsChain fun t t' =>
    t'.kind = .newline → t.kind ≠ .newline ∧ t.kind ≠ .dedent

/-- The layout tokens of every source that has tokens are well bracketed. -/
theorem wellBracketed_of_tokenize {keepComments : Bool} {source : Bytes} {tokens : List Token}
    (h : tokenize keepComments source = .ok tokens) : WellBracketed tokens := by
  obtain ⟨body, final, rfl, hrun⟩ := exists_run_of_tokenize h
  have hsound := Layout.isSound_start
  obtain ⟨hbrackets, -⟩ :=
    hrun.along Layout.depth (fun hadds hsound => hadds.brackets hsound) hsound
  have hblocks : Along Layout.blocksAfter Layout.AllowsBlock 0 (body ++ final.finish) ∧
      countBehind Layout.blocksAfter 0 (body ++ final.finish) = 0 := by
    obtain ⟨halong, hcount⟩ :=
      hrun.along (fun layout => layout.levels.length) (fun hadds _ => hadds.blocks) hsound
    have hstart : Layout.start.levels.length = 0 := rfl
    rw [hstart] at halong hcount
    rw [along_append, countBehind_append, hcount]
    exact ⟨⟨halong, final.finish_blocks.1⟩, final.finish_blocks.2⟩
  have hlines : Along Layout.lineAfter Layout.AllowsLine false (body ++ final.finish) := by
    obtain ⟨halong, hcount⟩ :=
      hrun.along Layout.lineOpen (fun hadds hsound => hadds.lines hsound) hsound
    have hstart : Layout.start.lineOpen = false := rfl
    rw [hstart] at halong hcount
    rw [along_append, hcount]
    exact ⟨halong, final.finish_lines⟩
  obtain ⟨hhead, hchain⟩ := Layout.isChain_of_along hlines
  constructor
  case endOfInput_last =>
    obtain ⟨closing, last, hfinish, hlast, hclosing⟩ := final.exists_finish_eq_append
    exact ⟨body ++ closing, last, by rw [hfinish, List.append_assoc], hlast,
      List.forall_mem_append.mpr ⟨hrun.kind_ne_endOfInput, hclosing⟩⟩
  case dedents_le =>
    rintro front ⟨back, hfront⟩
    rw [← hfront, along_append] at hblocks
    have := Layout.countBehind_blocks hblocks.1.1
    omega
  case dedents_eq =>
    have := Layout.countBehind_blocks hblocks.1
    omega
  case outside =>
    refine ⟨body, final, rfl, fun front t back hbody hlayout => ?_⟩
    rw [← countBehind_depthAfter]
    exact hbrackets.allows_of_eq_append hbody hlayout
  case newline_not_first => exact fun t ht hkind => absurd (hhead t ht hkind) (by decide)
  case newline_behind => exact hchain

/-- A line that ends behind a closed bracket but not within it, a block that ends behind a comment,
and a bracket that is open where the source ends. -/
theorem wellBracketed_of_tokenize_openBracket :
    ∃ tokens, tokenize true (text "if (a\n):\n  b # c\n\nd(\n") = .ok tokens ∧
      tokens.map Token.kind =
        [.kwIf, .openParen, .identifier, .closeParen, .colon, .newline, .indent,
        .identifier, .comment, .newline, .dedent, .identifier, .openParen, .newline, .endOfInput] ∧
      openBrackets [.kwIf, .openParen, .identifier] = 1 ∧
      openBrackets [.kwIf, .openParen, .identifier, .closeParen, .colon] = 0 ∧
      WellBracketed tokens := by
  obtain ⟨tokens, htokens, hkinds⟩ := exists_of_map_eq_ok (f := List.map Token.kind)
    (show (tokenize true (text "if (a\n):\n  b # c\n\nd(\n")).map (List.map Token.kind) = .ok
      [.kwIf, .openParen, .identifier, .closeParen, .colon, .newline, .indent, .identifier,
      .comment,
        .newline, .dedent, .identifier, .openParen, .newline, .endOfInput] by decide +kernel)
  exact ⟨tokens, htokens, hkinds, rfl, rfl, wellBracketed_of_tokenize htokens⟩

end SyntaxTree
