import SyntaxTree.Grammar.Module
import SyntaxTree.Proofs.Grammar.Sound
import SyntaxTree.Unicode.NameTable

/-
# Whole expressions

The tokens of a single expression end with a line end and the end of the input.  For the words of
the grammar of operators the reading of a whole expression accepts exactly what the grammar derives.
-/

namespace SyntaxTree

open Parse

/-! ## Line ends around an expression -/

namespace Parse

/-- No line end is taken where none stands. -/
theorem skipNewlines_none {c : Cursor} {w : Word} {ws : List Word} (hc : c.words = w :: ws)
    (hw : w.kind ≠ .newline) : skipNewlines c = .ok () c := by
  have hnone : acceptNewline c = .ok none c := by
    rw [acceptNewline, bind_ok (accept_false hc hw)]
    rfl
  rw [skipNewlines, bind_ok ((collect_run _ hc).trans (collectUpTo_none hnone _))]
  rfl

/-- A single line end is taken. -/
theorem skipNewlines_one {c : Cursor} {w w' : Word} {ws : List Word} (hc : c.words = w :: w' :: ws)
    (hw : w.kind = .newline) (hw' : w'.kind ≠ .newline) :
    skipNewlines c = .ok () c.advance := by
  have hadvance := Cursor.words_advance hc (by simp)
  have hsome : acceptNewline c = .ok (some ()) c.advance := by
    rw [acceptNewline, bind_ok (accept_true hc hw)]
    rfl
  have hnone : acceptNewline c.advance = .ok none c.advance := by
    rw [acceptNewline, bind_ok (accept_false hadvance hw')]
    rfl
  have hcollect := collectUpTo_some hsome (collectUpTo_none hnone ws.length)
  rw [skipNewlines, bind_ok ((collect_run _ hc).trans hcollect)]
  rfl

/-- The tokens of a source give what the reading of them gives. -/
theorem ofTokens_eq_ok {α : Type} {p : Parse α} {source : Bytes} {tokens : List Token} {a : α} :
    p.ofTokens source tokens = .ok a ↔
      ∃ c, p (.ofTokens (Bytes.lines source) tokens) = .ok a c := by
  rw [ofTokens, EStateM.run]
  cases p (.ofTokens (Bytes.lines source) tokens) <;> simp

end Parse

/-- The cursor in front of tokens that end with the end of the input. -/
theorem Cursor.words_ofTokens (lines : List Bytes) {ts : List Token} {final : Token}
    (hcomment : ∀ t ∈ ts, t.kind ≠ .comment) (hfinal : final.kind = .endOfInput) :
    (ofTokens lines (ts ++ [final])).words = ts.map Token.word ++ [final.word] ∧
      (ofTokens lines (ts ++ [final])).rest = ts := by
  have hfilter : (ts ++ [final]).filter (·.kind ≠ .comment) = ts ++ [final] := by
    refine List.filter_eq_self.mpr fun t ht => ?_
    obtain ht | ht := List.mem_append.mp ht
    · simpa using hcomment t ht
    · obtain rfl := List.mem_singleton.mp ht
      rw [hfinal]
      rfl
  rw [ofTokens, hfilter]
  simp [hfinal, words]

/-! ## Expression lists -/

/-- Words that read as an expression or as a tuple without parentheses. -/
structure ReadsList (ws : List Word) (e : Expr) : Prop where
  begins : ∃ w tail, ws = w :: tail ∧ w.kind ≠ .newline ∧ w.kind ≠ .endOfInput
  run : ∀ (field : FieldReading) (n : Nat) (c : Cursor) (f : Word) (more : List Word),
    ws.length < n → c.words = ws ++ f :: more → f.kind = .newline →
    ∃ v c', starExpressions (readUpTo field n) c = .ok v c' ∧ c'.words = f :: more ∧ v.bare = e

/-- Where no star stands, an expression list begins with an expression. -/
theorem Parse.starExpression_run {read : Reading} {c : Cursor} {w : Word} {ws : List Word}
    (hc : c.words = w :: ws) (hw : w.kind ≠ .star) :
    starExpression read c = read .expression c := by
  rw [starExpression, starredOr, bind_ok (at?_run hc _), if_neg (by simpa using hw)]

/-- Without a comma behind it, the first expression of a list is all of it. -/
theorem Parse.starExpressions_single {read : Reading} {c c' : Cursor} {w f : Word}
    {ws more : List Word} {v : Expr} (hc : c.words = w :: ws) (hw : w.kind ≠ .star)
    (hrun : read .expression c = .ok v c') (hc' : c'.words = f :: more) (hf : f.kind ≠ .comma) :
    starExpressions read c = .ok v c' := by
  rw [starExpressions, tupleOf, bind_ok ((starExpression_run hc hw).trans hrun),
    bind_ok (at?_run hc' _), if_neg (by simpa using hf)]
  rfl

/-- An expression is a list of itself. -/
theorem Reads.list {ws : List Word} {e : Expr} (h : Reads .expression ws e) : ReadsList ws e where
  begins := by
    obtain ⟨w, tail, hws, hw⟩ := h.begins
    exact ⟨w, tail, hws, hw.ne (by decide), hw.ne (by decide)⟩
  run := by
    intro field n c f more hn hc hf
    obtain ⟨v, c', hrun, hc', hv⟩ := h.read (g := .expression) field hn hc (by rw [hf]; decide)
    obtain ⟨w, tail, hws, hw⟩ := h.begins
    refine ⟨v, c', ?_, hc', hv⟩
    exact starExpressions_single (by rw [hc, hws]; rfl) (hw.ne (by decide)) hrun hc'
      (by rw [hf]; decide)

/-- A whole expression ends with a line end and the end of the input. -/
theorem Parse.wholeExpression_run {field : FieldReading} {c c₁ : Cursor} {w newline final : Word}
    {tail : List Word} {v : Expr} (hc : c.words = w :: tail) (hw : w.kind ≠ .newline)
    (hend : w.kind ≠ .endOfInput)
    (hrun : starExpressions (readUpTo field (tail.length + 1)) c = .ok v c₁)
    (hc₁ : c₁.words = [newline, final]) (hnewline : newline.kind = .newline)
    (hfinal : final.kind = .endOfInput) : wholeExpression field c = .ok v c₁.advance := by
  have hadvance := Cursor.words_advance hc₁ (by simp)
  rw [wholeExpression, bind_ok (limit_run hc), bind_ok (skipNewlines_none hc hw),
    bind_ok (at?_run hc _), if_neg (by simpa using hend), bind_ok hrun,
    bind_ok (skipNewlines_one hc₁ hnewline (hfinal.trans_ne (by decide))),
    bind_ok (at?_run hadvance _), if_pos (by simpa using hfinal)]
  rfl

/-- The words of an expression list, a line end and the end of the input are read to the end. -/
theorem ReadsList.wholeExpression {ws : List Word} {e : Expr} (h : ReadsList ws e)
    (field : FieldReading) {c : Cursor} {newline final : Word}
    (hc : c.words = ws ++ [newline, final]) (hnewline : newline.kind = .newline)
    (hfinal : final.kind = .endOfInput) :
    ∃ v c', Parse.wholeExpression field c = .ok v c' ∧ v.bare = e := by
  obtain ⟨w, tail, hws, hw, hend⟩ := h.begins
  have hlimit : ws.length < (tail ++ [newline, final]).length + 1 := by
    rw [hws, List.length_append, List.length_cons]
    exact Nat.succ_lt_succ (Nat.lt_add_of_pos_right (Nat.succ_pos 1))
  obtain ⟨v, c₁, hrun, hc₁, hv⟩ := h.run field _ c newline [final] hlimit hc hnewline
  have hwords : c.words = w :: (tail ++ [newline, final]) := by rw [hc, hws]; rfl
  exact ⟨v, c₁.advance, wholeExpression_run hwords hw hend hrun hc₁ hnewline hfinal, hv⟩

/-- The tokens of an expression list, a line end and the end of the input read as the list. -/
theorem ReadsList.onlyExpression [Unicode.CharacterNames] {ts : List Token} {e : Expr}
    (h : ReadsList (ts.map Token.word) e) (hcomment : ∀ t ∈ ts, t.kind ≠ .comment)
    {newline final : Token} (hnewline : newline.kind = .newline) (hfinal : final.kind = .endOfInput)
    (source : Bytes) :
    ∃ v, Parse.onlyExpression.ofTokens source (ts ++ [newline, final]) = .ok v ∧ v.bare = e := by
  have hcomment' : ∀ t ∈ ts ++ [newline], t.kind ≠ .comment := by
    refine List.forall_mem_append.mpr ⟨hcomment, List.forall_mem_singleton.mpr ?_⟩
    rw [hnewline]
    decide
  obtain ⟨hc, -⟩ := Cursor.words_ofTokens (Bytes.lines source) hcomment' hfinal
  rw [List.append_assoc, List.singleton_append] at hc
  rw [List.map_append, List.append_assoc] at hc
  generalize hcursor : Cursor.ofTokens (Bytes.lines source) (ts ++ [newline, final]) = c at hc
  obtain ⟨field', hfield⟩ : ∃ field', field c = .ok field' c := ⟨_, rfl⟩
  obtain ⟨v, c', hrun, hv⟩ := h.wholeExpression field' hc hnewline hfinal
  have honly : Parse.onlyExpression c = .ok v c' := by
    rw [Parse.onlyExpression, bind_ok hfield, hrun]
  exact ⟨v, ofTokens_eq_ok.mpr ⟨c', hcursor ▸ honly⟩, hv⟩

/-! ## The grammar of operators -/

/-- What holds of the words of all operators and operands holds of all their words. -/
theorem Further.forall_words {α : Type} {rest : List (Further α)} {property : Word → Prop}
    (hsigns : ∀ x ∈ rest, ∀ w ∈ x.sign, property w)
    (hoperands : ∀ x ∈ rest, ∀ w ∈ x.words, property w) :
    ∀ w ∈ rest.flatMap Further.all, property w := by
  intro w hw
  obtain ⟨x, hx, hw⟩ := List.mem_flatMap.mp hw
  obtain hw | hw := List.mem_append.mp hw
  · exact hsigns x hx w hw
  · exact hoperands x hx w hw

/-- An operator between operands is a word of the grammar. -/
theorem Level.isOperatorWord_of_mem (level : Level) {kind : TokenKind} {op : BinaryOperator}
    (h : (kind, op) ∈ level.operators) : kind.isOperatorWord := by
  have hall : ∀ x ∈ level.operators, x.1.isOperatorWord := by cases level <;> decide
  exact hall (kind, op) h

/-- A sign is a word of the grammar. -/
theorem UnaryOperator.isOperatorWord_of_mem {kind : TokenKind} {op : UnaryOperator}
    (h : (kind, op) ∈ signs) : kind.isOperatorWord := by
  have hall : ∀ x ∈ signs, x.1.isOperatorWord := by decide
  exact hall (kind, op) h

/-- The words of a comparison are words of the grammar. -/
theorem CompareOperator.isOperatorWord_of_mem (op : CompareOperator) {kind : TokenKind}
    (h : kind ∈ op.kinds) : kind.isOperatorWord := by
  have hall : ∀ k ∈ op.kinds, k.isOperatorWord := by cases op <;> decide
  exact hall kind h

/-- Words that the grammar derives are all of its own. -/
theorem Derives.isOperatorWord {level : Level} {ws : List Word} {e : Expr}
    (h : Derives level ws e) : ∀ w ∈ ws, w.kind.isOperatorWord := by
  induction h with
  | name hw => simp [hw, TokenKind.isOperatorWord]
  | integer hw _ => simp [hw, TokenKind.isOperatorWord]
  | group ho hclose _ ih =>
    simpa [ho, hclose, TokenKind.isOperatorWord, or_imp, forall_and] using ih
  | await hw _ ih => simpa [hw, TokenKind.isOperatorWord] using ih
  | pow _ hw _ ihl ihr =>
    simpa [hw, TokenKind.isOperatorWord, or_imp, forall_and] using ⟨ihl, ihr⟩
  | sign hw _ ih =>
    refine List.forall_mem_cons.mpr ⟨?_, ih⟩
    exact UnaryOperator.isOperatorWord_of_mem hw
  | operations _ _ hsigns _ ih ihs =>
    refine List.forall_mem_append.mpr ⟨ih, Further.forall_words (fun x hx w hw => ?_) ihs⟩
    obtain ⟨w', hsign, hop⟩ := hsigns x hx
    rw [hsign, List.mem_singleton] at hw
    exact hw ▸ Level.isOperatorWord_of_mem _ hop
  | chain _ _ hsigns _ ih ihs =>
    refine List.forall_mem_append.mpr ⟨ih, Further.forall_words (fun x hx w hw => ?_) ihs⟩
    exact x.op.isOperatorWord_of_mem (hsigns x hx ▸ List.mem_map_of_mem hw)
  | not hw _ ih => simpa [hw, TokenKind.isOperatorWord] using ih
  | @joined op _ _ _ _ _ hsigns _ ih ihs =>
    refine List.forall_mem_append.mpr ⟨ih, Further.forall_words (fun x hx w hw => ?_) ihs⟩
    obtain ⟨w', hsign, hop⟩ := hsigns x hx
    rw [hsign, List.mem_singleton] at hw
    rw [hw, hop]
    cases op <;> rfl
  | conditional _ hif _ helse _ ih ih₁ ih₂ =>
    simpa [hif, helse, TokenKind.isOperatorWord, or_imp, forall_and] using ⟨ih, ih₁, ih₂⟩
  | looser _ _ ih => exact ih

/-- Words without a line end, up to one or to the end of the input. -/
theorem eq_of_append_eq_append {ws ws' left right : List Word}
    (hws : ∀ w ∈ ws, w.kind.isOperatorWord) (hws' : ∀ w ∈ ws', w.kind.isOperatorWord)
    (hleft : ∀ w ∈ left.head?, w.kind.isOperatorWord = false)
    (hright : ∀ w ∈ right.head?, w.kind.isOperatorWord = false)
    (h : ws ++ left = ws' ++ right) : ws = ws' := by
  have htake : ∀ {front back : List Word}, (∀ w ∈ front, w.kind.isOperatorWord) →
      (∀ w ∈ back.head?, w.kind.isOperatorWord = false) →
      (front ++ back).takeWhile (·.kind.isOperatorWord) = front := by
    intro front back hfront hback
    rw [List.takeWhile_append_of_pos hfront]
    cases back with
    | nil => simp
    | cons w back => simp [hback w rfl]
  rw [← htake hws hleft, h, htake hws' hright]

/-- A whole expression takes words that derive it, up to a line end or the end of the input. -/
theorem Parse.wholeExpression_takes {field : FieldReading} {c c' : Cursor} {w : Word}
    {tail : List Word} {v : Expr} (hc : Plain c.words) (hwords : c.words = w :: tail)
    (hnewline : w.kind ≠ .newline) (hstar : w.kind ≠ .star)
    (h : wholeExpression field c = .ok v c') :
    ∃ ws f more, c.words = ws ++ f :: more ∧ f.kind.isOperatorWord = false ∧
      Derives .expression ws v.bare := by
  have hlimit : limit c = .ok (c.rest.length + 1) c := rfl
  rw [wholeExpression, bind_ok hlimit, bind_ok (skipNewlines_none hwords hnewline),
    bind_ok (at?_run hwords _)] at h
  split at h
  · exact nomatch h
  obtain ⟨value, c₁, hvalue, hend⟩ := Parse.exists_of_bind_eq_ok h
  rw [starExpressions, tupleOf] at hvalue
  obtain ⟨first, c₂, hfirst, hvalue⟩ := Parse.exists_of_bind_eq_ok hvalue
  rw [starExpression_run hwords hstar] at hfirst
  obtain ⟨ws, hws, hc₂, hderives⟩ := (readUpTo_takes field _ .expression).run hc hfirst
  obtain ⟨f, more, hmore⟩ := c₂.exists_words
  have hcomma : f.kind ≠ .comma := hc₂.kind_ne (by simp [hmore]) (by decide)
  rw [bind_ok (at?_run hmore _), if_neg (by simpa using hcomma)] at hvalue
  cases hvalue
  by_cases hf : f.kind = .newline
  · obtain ⟨_, c₃, _, hlast⟩ := Parse.exists_of_bind_eq_ok hend
    obtain ⟨atEnd, c₄, hat, hlast⟩ := Parse.exists_of_bind_eq_ok hlast
    cases atEnd with
    | false => exact nomatch hlast
    | true =>
      cases hlast
      exact ⟨ws, f, more, by rw [hws, hmore], by rw [hf]; rfl, hderives⟩
  · rw [bind_ok (skipNewlines_none hmore hf), bind_ok (at?_run hmore _)] at hend
    split at hend
    · rename_i hkind
      cases hend
      have hkind : f.kind = .endOfInput := by simpa using hkind
      exact ⟨ws, f, more, by rw [hws, hmore], by rw [hkind]; rfl, hderives⟩
    · exact nomatch hend

/-- A line end alone is no expression. -/
theorem Parse.wholeExpression_newline {field : FieldReading} {c c' : Cursor} {w w' : Word}
    {v : Expr} (hc : c.words = [w, w']) (hw : w.kind = .newline) (hw' : w'.kind = .endOfInput) :
    wholeExpression field c ≠ .ok v c' := by
  intro h
  have hlimit : limit c = .ok (c.rest.length + 1) c := rfl
  have hadvance := Cursor.words_advance hc (by simp)
  rw [wholeExpression, bind_ok hlimit, bind_ok (skipNewlines_one hc hw (hw'.trans_ne (by decide))),
    bind_ok (at?_run hadvance _), if_pos (by simpa using hw')] at h
  exact nomatch h

/-- The tokens of words of the grammar of operators, in which the first is no star, no call follows
an operand and no parentheses are empty, read as an expression exactly if the grammar derives it. -/
theorem Parse.onlyExpression_iff_derives [Unicode.CharacterNames] (source : Bytes) {ts : List Token}
    {newline final : Token} {e : Expr} (hkinds : ∀ t ∈ ts, t.kind.isOperatorWord)
    (hadjacent : (ts.map Token.word).IsChain Word.MayPrecede)
    (hstar : ∀ t ∈ ts.head?, t.kind ≠ .star) (hnewline : newline.kind = .newline)
    (hfinal : final.kind = .endOfInput) :
    (∃ v, onlyExpression.ofTokens source (ts ++ [newline, final]) = .ok v ∧ v.bare = e) ↔
      Derives .expression (ts.map Token.word) e := by
  have hcomment : ∀ t ∈ ts, t.kind ≠ .comment := by
    intro t ht hkind
    have hword := hkinds t ht
    rw [hkind] at hword
    exact nomatch hword
  constructor
  · rintro ⟨v, hread, rfl⟩
    obtain ⟨c', hrun⟩ := ofTokens_eq_ok.mp hread
    have hcomment' : ∀ t ∈ ts ++ [newline], t.kind ≠ .comment :=
      List.forall_mem_append.mpr ⟨hcomment, by simp [hnewline]⟩
    obtain ⟨hc, -⟩ := Cursor.words_ofTokens (Bytes.lines source) hcomment' hfinal
    rw [List.append_assoc, List.singleton_append] at hc
    rw [List.map_append, List.append_assoc] at hc
    generalize Cursor.ofTokens (Bytes.lines source) (ts ++ [newline, final]) = c at hc hrun
    replace hrun : wholeExpression _ c = .ok v c' := hrun
    cases ts with
    | nil => exact absurd hrun (wholeExpression_newline hc hnewline hfinal)
    | cons t ts =>
      have hwords : ∀ w ∈ (t :: ts).map Token.word, w.kind.isOperatorWord :=
        List.forall_mem_map.mpr hkinds
      have hplain : Plain c.words := by
        rw [hc]
        exact .of_isOperatorWord hwords hadjacent hnewline hfinal
      have hfirst : t.kind ≠ .newline := by
        intro hkind
        have hword := hkinds t (by simp)
        rw [hkind] at hword
        exact nomatch hword
      obtain ⟨ws, f, more, hws, hf, hderives⟩ :=
        wholeExpression_takes hplain hc hfirst (hstar t rfl) hrun
      -- What was read ends at a newline, which is no word of the grammar, so it is all of `ts`.
      have heq : (t :: ts).map Token.word = ws := by
        refine eq_of_append_eq_append hwords hderives.isOperatorWord ?_ ?_ (hc.symm.trans hws)
        · simp [Token.word, hnewline, TokenKind.isOperatorWord]
        · simp [hf]
      rw [heq]
      exact hderives
  · intro h
    exact h.reads.list.onlyExpression hcomment hnewline hfinal source

open scoped Unicode.NameTable in
/-- A sign in front of a power takes all of it. -/
theorem Parse.onlyExpression_iff_derives_minus_power :
    ∃ v, onlyExpression.ofTokens (text "-a**b")
        ([.empty .minus (text "-") .origin, .empty .identifier (text "a") .origin,
          .empty .doubleStar (text "**") .origin, .empty .identifier (text "b") .origin] ++
          [.empty .newline (text "\n") .origin, .empty .endOfInput [] .origin]) = .ok v ∧
      v.bare = .new (.unary .minus (.new (.binary .pow (.new (.name (text "a") .load))
        (.new (.name (text "b") .load))))) := by
  refine (onlyExpression_iff_derives _ (by decide) (by decide) (by decide) rfl rfl).mpr ?_
  have hname (s : Bytes) : Derives .atom [⟨.identifier, s⟩] (.new (.name s .load)) := .name rfl
  have hpower := Derives.pow (w := ⟨.doubleStar, text "**"⟩)
    (.looser (by decide) (hname (text "a"))) rfl (.looser (by decide) (hname (text "b")))
  exact .looser (by decide) (.sign (by decide) (.looser (by decide) hpower))

end SyntaxTree
