import SyntaxTree.Token.Layout
import SyntaxTree.Proofs.Token.Division

/-
# Runs of the layout

What one lexeme can do to the layout is said once, case by case.  The tokens of a source are those
of a run over its lexemes, from the beginning of the source to its end, and behind them those that
close the last line and the open blocks.
-/

namespace SyntaxTree

/-! ## Kinds of lexemes -/

/-- A token that stands for a piece of the source: neither layout nor a comment nor the end. -/
def TokenKind.isProper (kind : TokenKind) : Bool :=
  !kind.isLayout && kind != .comment && kind != .endOfInput

theorem TokenKind.isLayout_of_isProper {kind : TokenKind} (h : kind.isProper) :
    kind.isLayout = false := by
  simp only [TokenKind.isProper, Bool.and_eq_true, Bool.not_eq_true'] at h
  exact h.1.1

theorem TokenKind.isProper_ofWord (word : Bytes) : (TokenKind.ofWord word).isProper :=
  forall_ofWord (p := fun kind => kind.isProper) rfl (by decide) word

theorem isProper_textKind (word : Bytes) : (textKind word).isProper := by
  unfold textKind
  split <;> rfl

theorem TokenKind.isProper_of_isNumber {kind : TokenKind} (h : kind.isNumber) : kind.isProper := by
  unfold isNumber at h
  split at h
  · rfl
  · rfl
  · rfl
  · cases h

theorem TokenKind.isProper_of_isText {kind : TokenKind} (h : kind.isText) : kind.isProper := by
  cases kind <;> first | rfl | cases h

theorem Number.isNumber_of_after {kind : TokenKind} {b : Byte} {s rest : Bytes}
    (h : Number.after b s = .ok (kind, rest)) : kind.isNumber := by
  have hsuffix : ∀ {whole s kind rest}, Number.afterSuffix whole s = .ok (kind, rest) →
      kind.isNumber := by
    intro whole s kind rest h
    unfold Number.afterSuffix at h
    grind [TokenKind.isNumber]
  have hdecimal : ∀ {b s kind rest}, Number.afterDecimal b s = .ok (kind, rest) →
      kind.isNumber := by
    intro b s kind rest h
    unfold Number.afterDecimal at h
    obtain ⟨point, -, h⟩ := exists_of_bind_eq_ok h
    obtain ⟨exponent, -, h⟩ := exists_of_bind_eq_ok h
    obtain ⟨suffix, -, h⟩ := exists_of_bind_eq_ok h
    obtain ⟨⟨kind', rest'⟩, hkind, h⟩ := exists_of_bind_eq_ok h
    have := hsuffix hkind
    grind
  unfold Number.after at h
  split at h
  · split at h
    · obtain ⟨rest', -, h⟩ := exists_of_map_eq_ok h
      obtain ⟨rfl, -⟩ := Prod.mk.inj h
      rfl
    · exact hdecimal h
  · exact hdecimal h

namespace Lexeme

/-- What begins like a name is a word or a literal, and of its kind holds what holds of both. -/
theorem forall_of_afterName {p : TokenKind → Prop} (hword : ∀ word, p (.ofWord word))
    (htext : ∀ word, p (textKind word)) {kind : TokenKind} {b : Byte} {s rest : Bytes}
    (h : afterName b s = .ok (kind, rest)) : p kind := by
  have hbehind {word start : Bytes} (h : afterWordOrText word start = .ok (kind, rest)) :
      p kind := by
    unfold afterWordOrText at h
    split at h
    · split at h
      · obtain ⟨rest', -, h⟩ := exists_of_map_eq_ok h
        exact (Prod.mk.inj h).1 ▸ htext word
      · exact (Prod.mk.inj (Except.ok.inj h)).1 ▸ hword word
    · exact (Prod.mk.inj (Except.ok.inj h)).1 ▸ hword word
  unfold afterName at h
  split at h
  · split at h
    · cases h
    · split at h
      · exact hbehind h
      · cases h
  · exact hbehind h

/-- The token that a text begins with is none of the layout. -/
theorem isProper_of_afterToken {kind : TokenKind} {b : Byte} {s rest : Bytes}
    (h : afterToken b s = .ok (kind, rest)) : kind.isProper := by
  have hoperators : ∀ entry ∈ TokenKind.operators, entry.2.isProper = true := by decide
  unfold afterToken at h
  split at h
  · exact TokenKind.isProper_of_isNumber (Number.isNumber_of_after h)
  split at h
  · exact forall_of_afterName (p := fun kind => kind.isProper) TokenKind.isProper_ofWord
      isProper_textKind h
  split at h
  · obtain ⟨rest', -, h⟩ := exists_of_map_eq_ok h
    obtain ⟨rfl, -⟩ := Prod.mk.inj h
    rfl
  · unfold afterOperator at h
    split at h
    · next hfind =>
      obtain ⟨rfl, -⟩ := Prod.mk.inj (Except.ok.inj h)
      exact hoperators _ (List.mem_of_find?_eq_some hfind)
    · simp at h

theorem afterToken_of_next {kind : TokenKind} {b : Byte} {s rest : Bytes}
    (h : next b s = .ok (.token kind, rest)) : afterToken b s = .ok (kind, rest) := by
  unfold next at h
  split at h
  · cases h
  split at h
  · cases h
  split at h
  · cases h
  split at h
  · obtain ⟨rest', -, h⟩ := exists_of_map_eq_ok h
    cases h
  · obtain ⟨⟨kind', rest'⟩, htoken, h⟩ := exists_of_map_eq_ok h
    cases h
    exact htoken

theorem isProper_of_next {kind : TokenKind} {b : Byte} {s rest : Bytes}
    (h : next b s = .ok (.token kind, rest)) : kind.isProper :=
  isProper_of_afterToken (afterToken_of_next h)

end Lexeme

/-! ## One lexeme -/

namespace Layout

/-- What the first token of a line, or a join in its place, adds in front of itself. -/
inductive Opens : Layout → List Token → Layout → Prop where
  /-- The line has begun. -/
  | begun {layout : Layout} (hmargin : layout.margin = none) : Opens layout [] layout
  /-- The line begins a block. -/
  | deeper {layout : Layout} {blanks : Bytes} (hmargin : layout.margin = some blanks) :
    Opens layout [⟨.indent, blanks, ⟨layout.place.line, 1⟩, layout.place⟩]
      { layout with
        levels := width blanks :: layout.levels, margin := none, lineOpen := true }
  /-- The line ends some of the open blocks, or none. -/
  | shallower {layout : Layout} {blanks : Bytes} (closed kept : List Nat)
    (hmargin : layout.margin = some blanks) (hlevels : layout.levels = closed ++ kept) :
    Opens layout (closed.map fun _ => layout.dedent) { layout with levels := kept, margin := none }

/-- What one lexeme adds to the tokens, and the layout behind it. -/
inductive Adds (keepComments : Bool) : Layout → Lexeme → List Token → Layout → Prop where
  | blank {layout : Layout} (s : Bytes) :
    Adds keepComments layout ⟨.blank, s⟩ []
      ({ layout with margin := layout.margin.map fun _ => s }.advance s)
  | comment {layout : Layout} (s : Bytes) :
    Adds keepComments layout ⟨.comment, s⟩
      (if keepComments then [layout.token .comment s] else []) (layout.advance s)
  /-- The end of a logical line. -/
  | lineEnd {layout : Layout} (s : Bytes) (hdepth : layout.depth = 0) :
    Adds keepComments layout ⟨.lineEnd, s⟩
      (if layout.lineOpen then
        [⟨.newline, text "\n", layout.place, layout.place.nextColumn⟩] else [])
      ({ layout with margin := some [], lineOpen := false }.advance s)
  /-- The end of a line between brackets. -/
  | innerEnd {layout : Layout} (s : Bytes) (hdepth : layout.depth ≠ 0) :
    Adds keepComments layout ⟨.lineEnd, s⟩ [] (layout.advance s)
  | join {layout opened : Layout} {emitted : List Token} (s : Bytes)
    (h : layout.Opens emitted opened) : Adds keepComments layout ⟨.join, s⟩ emitted
      (opened.advance s)
  | token {layout opened : Layout} {emitted : List Token} {kind : TokenKind} (s : Bytes)
    (hkind : kind.isProper) (h : layout.Opens emitted opened) :
    Adds keepComments layout ⟨.token kind, s⟩ (emitted ++ [opened.token kind s])
      ({ opened with depth := depthAfter opened.depth kind, lineOpen := true }.advance s)

theorem opens_of_openLine {layout layout' : Layout} {emitted : List Token}
    (h : layout.openLine = .ok (emitted, layout')) : layout.Opens emitted layout' := by
  unfold openLine at h
  split at h
  · next hmargin =>
    obtain ⟨rfl, rfl⟩ := Prod.mk.inj (Except.ok.inj h)
    exact .begun hmargin
  · next blanks hmargin =>
    dsimp only at h
    split at h
    · obtain ⟨rfl, rfl⟩ := Prod.mk.inj (Except.ok.inj h)
      exact .deeper hmargin
    · split at h
      · obtain ⟨rfl, rfl⟩ := Prod.mk.inj (Except.ok.inj h)
        -- The blocks that end are the innermost ones, so the others are what stands behind them.
        have hprefix := List.takeWhile_prefix (l := layout.levels) (width blanks < ·)
        exact .shallower _ _ hmargin (List.prefix_iff_eq_append.mp hprefix).symm
      · simp at h

/-- What a step can do. -/
theorem adds_of_step {keepComments : Bool} {layout layout' : Layout} {lexeme : Lexeme}
    {emitted : List Token} (hkind : ∀ kind, lexeme.kind = .token kind → kind.isProper)
    (h : layout.step keepComments lexeme = .ok (emitted, layout')) :
    Adds keepComments layout lexeme emitted layout' := by
  obtain ⟨kind, s⟩ := lexeme
  unfold step at h
  cases kind with
  | blank =>
    obtain ⟨rfl, rfl⟩ := Prod.mk.inj (Except.ok.inj h)
    exact .blank s
  | comment =>
    obtain ⟨rfl, rfl⟩ := Prod.mk.inj (Except.ok.inj h)
    exact .comment s
  | lineEnd =>
    dsimp only at h
    split at h
    · next hdepth =>
      obtain ⟨rfl, rfl⟩ := Prod.mk.inj (Except.ok.inj h)
      exact .lineEnd s hdepth
    · next hdepth =>
      obtain ⟨rfl, rfl⟩ := Prod.mk.inj (Except.ok.inj h)
      exact .innerEnd s hdepth
  | join =>
    obtain ⟨⟨opened, behind⟩, hopen, h⟩ := exists_of_bind_eq_ok h
    obtain ⟨rfl, rfl⟩ := Prod.mk.inj (Except.ok.inj h)
    exact .join s (opens_of_openLine hopen)
  | token kind =>
    obtain ⟨⟨opened, behind⟩, hopen, h⟩ := exists_of_bind_eq_ok h
    obtain ⟨rfl, rfl⟩ := Prod.mk.inj (Except.ok.inj h)
    exact .token s (hkind kind rfl) (opens_of_openLine hopen)

/-- What opens a line only shows its layout. -/
theorem Opens.kind_of_mem {layout opened : Layout} {emitted : List Token}
    (h : layout.Opens emitted opened) : ∀ t ∈ emitted, t.kind = .indent ∨ t.kind = .dedent := by
  cases h with
  | begun => exact List.forall_mem_nil _
  | deeper => exact List.forall_mem_singleton.mpr (.inl rfl)
  | shallower closed =>
    intro t ht
    obtain ⟨_, -, rfl⟩ := List.mem_map.mp ht
    exact .inr rfl

theorem Opens.not_isProper {layout opened : Layout} {emitted : List Token}
    (h : layout.Opens emitted opened) : ∀ t ∈ emitted, t.kind.isProper = false := by
  intro t ht
  rcases h.kind_of_mem t ht with hkind | hkind
  · rw [hkind]
    rfl
  · rw [hkind]
    rfl

/-- The end of a source gives no other tokens than those that close its last line and its blocks. -/
theorem kind_of_mem_finish {layout : Layout} {t : Token} (h : t ∈ layout.finish) :
    t.kind = .newline ∨ t.kind = .dedent ∨ t.kind = .endOfInput := by
  simp only [finish, List.mem_append, List.mem_ite_nil_right, List.mem_map, List.mem_singleton] at h
  rcases h with (⟨-, rfl⟩ | ⟨_, -, rfl⟩) | rfl
  · exact .inl rfl
  · exact .inr (.inl rfl)
  · exact .inr (.inr rfl)

theorem not_isProper_of_mem_finish {layout : Layout} {t : Token} (h : t ∈ layout.finish) :
    t.kind.isProper = false := by
  rcases kind_of_mem_finish h with hkind | hkind | hkind
  · rw [hkind]
    rfl
  · rw [hkind]
    rfl
  · rw [hkind]
    rfl

theorem ne_indent_of_mem_finish {layout : Layout} {t : Token} (h : t ∈ layout.finish) :
    t.kind ≠ .indent := by
  intro hindent
  have hkind := kind_of_mem_finish h
  rw [hindent] at hkind
  rcases hkind with hkind | hkind | hkind <;> cases hkind

theorem Opens.margin_eq_none {layout opened : Layout} {emitted : List Token}
    (h : layout.Opens emitted opened) : opened.margin = none := by
  cases h with
  | begun hmargin => exact hmargin
  | deeper hmargin => rfl
  | shallower closed kept hmargin hlevels => rfl

/-! ## Whole sources -/

/-- The tokens of a text that is read from one layout to another. -/
inductive Run (keepComments : Bool) : Bytes → Layout → List Token → Layout → Prop where
  | nil {layout : Layout} : Run keepComments [] layout [] layout
  | cons {b : Byte} {t rest : Bytes} {kind : LexemeKind} {layout layout' final : Layout}
    {emitted more : List Token} (hnext : Lexeme.next b (t ++ rest) = .ok (kind, rest))
    (hadds : Adds keepComments layout ⟨kind, b :: t⟩ emitted layout')
    (hrest : Run keepComments rest layout' more final) :
    Run keepComments (b :: t ++ rest) layout (emitted ++ more) final

/-- A source that has tokens is read to its end. -/
theorem exists_run_of_tokens {keepComments : Bool} {s : Bytes} {layout : Layout}
    {tokens : List Token}
    (h : layout.tokens keepComments (Division.ofBytes s).failure (Division.ofBytes s).lexemes =
      .ok tokens) :
    ∃ body final, tokens = body ++ final.finish ∧ Run keepComments s layout body final := by
  fun_induction Division.ofBytes s generalizing layout tokens with
  | case1 =>
    obtain rfl : layout.finish = tokens := Except.ok.inj h
    exact ⟨[], layout, rfl, .nil⟩
  | case2 b tail cause hnext => simp [Layout.tokens] at h
  | case3 b tail kind rest hnext _ ih =>
    obtain ⟨t, rfl⟩ := Lexeme.suffix_of_next hnext
    have hbefore : Lexeme.before (b :: (t ++ rest)) rest = b :: t :=
      Lexeme.before_append (b :: t) rest
    rw [hbefore] at h
    obtain ⟨⟨emitted, layout'⟩, hstep, h⟩ := exists_of_bind_eq_ok h
    obtain ⟨more, hmore, h⟩ := exists_of_bind_eq_ok h
    obtain rfl : emitted ++ more = tokens := Except.ok.inj h
    obtain ⟨body, final, rfl, hrun⟩ := ih hmore
    have hadds : Adds keepComments layout ⟨kind, b :: t⟩ emitted layout' :=
      adds_of_step (fun kind' (hkind : kind = .token kind') =>
        Lexeme.isProper_of_next (hkind ▸ hnext)) hstep
    exact ⟨emitted ++ body, final, (List.append_assoc ..).symm, .cons hnext hadds hrun⟩

end Layout

/-- The tokens of a source are those of a run over it and those of its end. -/
theorem exists_run_of_tokenize {keepComments : Bool} {source : Bytes} {tokens : List Token}
    (h : tokenize keepComments source = .ok tokens) :
    ∃ body final, tokens = body ++ final.finish ∧
      Layout.Run keepComments (dropMark source) .start body final :=
  Layout.exists_run_of_tokens h

end SyntaxTree
