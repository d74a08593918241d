import SyntaxTree.Grammar.Module
import SyntaxTree.Proofs.Token.Run

/-
# Comments

A comment moves the place of the next lexeme and changes nothing else in the layout, so the tokens
of a source with its comments are those without them and the comments in between.  No other lexeme
gives a token that is a comment.  A cursor passes over comments, so both lists are read alike.
-/

namespace SyntaxTree

/-- The tokens of a list that are no comments. -/
def withoutComments (tokens : List Token) : List Token := tokens.filter (·.kind ≠ .comment)

theorem withoutComments_append (ts ts' : List Token) :
    withoutComments (ts ++ ts') = withoutComments ts ++ withoutComments ts' :=
  List.filter_append ..

theorem withoutComments_eq_self {ts : List Token} (h : ∀ t ∈ ts, t.kind ≠ .comment) :
    withoutComments ts = ts :=
  List.filter_eq_self.mpr fun t ht => decide_eq_true (h t ht)

theorem withoutComments_withoutComments (ts : List Token) :
    withoutComments (withoutComments ts) = withoutComments ts := by
  apply withoutComments_eq_self
  intro t ht
  exact of_decide_eq_true (List.mem_filter.mp ht).2

/-! ## The lexemes of a source -/

/-- The tokens among the lexemes of a source stand for pieces of it. -/
theorem Division.isProper_of_mem (s : Bytes) :
    ∀ lexeme ∈ (Division.ofBytes s).lexemes, ∀ kind, lexeme.kind = .token kind → kind.isProper := by
  fun_induction Division.ofBytes s with
  | case1 => exact List.forall_mem_nil _
  | case2 => exact List.forall_mem_nil _
  | case3 b tail kind rest hnext _ ih =>
    refine List.forall_mem_cons.mpr ⟨?_, ih⟩
    intro kind' hkind
    obtain rfl : kind = .token kind' := hkind
    exact Lexeme.isProper_of_next hnext

/-! ## The layout -/

namespace Layout

theorem Opens.ne_comment {layout opened : Layout} {emitted : List Token}
    (h : layout.Opens emitted opened) : ∀ t ∈ emitted, t.kind ≠ .comment := by
  intro t ht hcomment
  have hkind := h.kind_of_mem t ht
  rw [hcomment] at hkind
  rcases hkind with hkind | hkind <;> cases hkind

theorem ne_comment_of_mem_finish (layout : Layout) : ∀ t ∈ layout.finish, t.kind ≠ .comment := by
  intro t ht hcomment
  have hkind := kind_of_mem_finish ht
  rw [hcomment] at hkind
  rcases hkind with hkind | hkind | hkind <;> cases hkind

/-- A lexeme that begins its line gives tokens that are no comments. -/
theorem openLine_withoutComments (layout : Layout) {more : Layout → List Token}
    (behind : Layout → Layout) (hmore : ∀ opened, ∀ t ∈ more opened, t.kind ≠ .comment) :
    (layout.openLine >>= fun p => .ok (p.1 ++ more p.2, behind p.2)).map
        (fun p => (withoutComments p.1, p.2)) =
      (layout.openLine >>= fun p => .ok (p.1 ++ more p.2, behind p.2)) := by
  cases hline : layout.openLine with
  | error e => rfl
  | ok p =>
    obtain ⟨emitted, opened⟩ := p
    have hemitted := (opens_of_openLine hline).ne_comment
    have hboth : ∀ t ∈ emitted ++ more opened, t.kind ≠ .comment :=
      List.forall_mem_append.mpr ⟨hemitted, hmore opened⟩
    show Except.ok (withoutComments (emitted ++ more opened), behind opened) = _
    rw [withoutComments_eq_self hboth]
    rfl

/-- Whether comments are kept changes neither the layout behind a lexeme nor its other tokens. -/
theorem step_withoutComments (layout : Layout) {lexeme : Lexeme}
    (hkind : ∀ kind, lexeme.kind = .token kind → kind.isProper) :
    (layout.step true lexeme).map (fun p => (withoutComments p.1, p.2)) =
      layout.step false lexeme := by
  obtain ⟨kind, s⟩ := lexeme
  cases kind with
  | blank => rfl
  | comment => rfl
  | lineEnd =>
    unfold step
    dsimp only
    by_cases hdepth : layout.depth = 0
    · rw [if_pos hdepth]
      cases layout.lineOpen <;> rfl
    · rw [if_neg hdepth]
      rfl
  | join =>
    have hne : ∀ _ : Layout, ∀ t ∈ ([] : List Token), t.kind ≠ .comment :=
      fun _ => List.forall_mem_nil _
    have hstep := layout.openLine_withoutComments (·.advance s) hne
    simp only [List.append_nil] at hstep
    exact hstep
  | token kind =>
    have hne : ∀ opened : Layout, ∀ t ∈ [opened.token kind s], t.kind ≠ .comment := by
      intro opened
      refine List.forall_mem_singleton.mpr ?_
      rintro rfl
      exact Bool.noConfusion (hkind _ rfl)
    exact layout.openLine_withoutComments (fun opened =>
      { opened with depth := depthAfter opened.depth kind, lineOpen := true }.advance s) hne

/-- The tokens of the rest of a source, without its comments. -/
theorem tokens_withoutComments (failure : Option LexicalCause) {lexemes : List Lexeme}
    (hkind : ∀ lexeme ∈ lexemes, ∀ kind, lexeme.kind = .token kind → kind.isProper)
    (layout : Layout) :
    (layout.tokens true failure lexemes).map withoutComments =
      layout.tokens false failure lexemes := by
  induction lexemes generalizing layout with
  | nil =>
    unfold tokens
    cases failure with
    | none =>
      exact congrArg Except.ok (withoutComments_eq_self layout.ne_comment_of_mem_finish)
    | some cause => rfl
  | cons lexeme rest ih =>
    have hhead := hkind lexeme List.mem_cons_self
    have hrest := ih fun l hl => hkind l (List.mem_cons_of_mem _ hl)
    have hstep := layout.step_withoutComments hhead
    unfold tokens
    rw [← hstep]
    cases layout.step true lexeme with
    | error e => rfl
    | ok p =>
      obtain ⟨emitted, behind⟩ := p
      have hmore := hrest behind
      show Except.map withoutComments
        (behind.tokens true failure rest >>= fun more => .ok (emitted ++ more)) =
          (behind.tokens false failure rest >>= fun more => .ok (withoutComments emitted ++ more))
      rw [← hmore]
      cases behind.tokens true failure rest with
      | error e => rfl
      | ok more => exact congrArg Except.ok (withoutComments_append emitted more)

end Layout

/-! ## Sources -/

theorem tokenize_withoutComments (source : Bytes) :
    (tokenize true source).map withoutComments = tokenize false source :=
  Layout.tokens_withoutComments _ (Division.isProper_of_mem (dropMark source)) .start

/-- A reading passes over comments. -/
theorem Parse.ofTokens_withoutComments {α : Type} (reading : Parse α) (source : Bytes)
    (ts : List Token) :
    reading.ofTokens source (withoutComments ts) = reading.ofTokens source ts := by
  have hcursor : Cursor.ofTokens (Bytes.lines source) (withoutComments ts) =
      Cursor.ofTokens (Bytes.lines source) ts := by
    unfold Cursor.ofTokens
    rw [show (withoutComments ts).filter (·.kind ≠ .comment) = ts.filter (·.kind ≠ .comment) from
      withoutComments_withoutComments ts]
  unfold Parse.ofTokens
  rw [hcursor]

/-- Comments cannot be seen.  The tokens of a source with comments, without the comments among them,
are its tokens without comments; the one list fails to exist just as the other does.  In every mode
the same module, or the same error, is read from both. -/
theorem comments_invisible [Unicode.CharacterNames] (source : Bytes) :
    (tokenize true source).map withoutComments = tokenize false source ∧
      (∀ e, tokenize true source = .error e ↔ tokenize false source = .error e) ∧
      ∀ mode, (tokenize true source).mapError .lexical >>= (Parse.moduleIn mode).ofTokens source =
        Module.ofSource mode source := by
  have htokens := tokenize_withoutComments source
  refine ⟨htokens, fun e => ?_, fun mode => ?_⟩
  · rw [← htokens]
    cases tokenize true source with
    | error e' => exact Iff.rfl
    | ok ts =>
      constructor
      · intro h
        cases h
      · intro h
        cases h
  · unfold Module.ofSource Parse.ofSource
    rw [← htokens]
    cases tokenize true source with
    | error e => rfl
    | ok ts => exact ((Parse.moduleIn mode).ofTokens_withoutComments source ts).symm

end SyntaxTree
