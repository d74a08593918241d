import SyntaxTree.Proofs.Grammar.Level
import SyntaxTree.Tree.Edit

/-
# Words that read as an expression

Words read as an expression at a level, whatever the fields and however deep the nesting may go, if
the reading of the level takes exactly these words.  At levels that repeat a step the words may also
lead to an expression, with which the repetition goes on.
-/

namespace SyntaxTree

open Parse

/-! ## Definitions -/

/-- Words that begin at a level and cannot be taken for an assignment or a keyword argument. -/
structure Opens (level : Level) (ws : List Word) (e : Expr) : Prop where
  begins : ∃ w tail, ws = w :: tail ∧ w.kind.Begins level
  second : ∀ w ∈ ws.tail.head?, w.kind ≠ .colonEqual ∧ w.kind ≠ .equal
  notStarred : e.isStarred = false

/-- Words that read as an expression at a level. -/
structure Reads (level : Level) (ws : List Word) (e : Expr) : Prop extends Opens level ws e where
  run : ∀ (field : FieldReading) (n : Nat) (c : Cursor) (f : Word) (more : List Word),
    ws.length ≤ n → c.words = ws ++ f :: more → f.kind.Ends level →
    ∃ v c', level.parse (readUpTo field n) field c = .ok v c' ∧ c'.words = f :: more ∧ v.bare = e

/-- Words that lead to an expression at a level which repeats a step. -/
structure Leads (level : Level) (ws : List Word) (e : Expr) : Prop extends Opens level ws e where
  run : ∀ (field : FieldReading) (n : Nat) (c : Cursor) (f : Word) (more : List Word),
    ws.length ≤ n → c.words = ws ++ f :: more → f.kind.EndsAbove level →
    ∃ v c' k, level.parse (readUpTo field n) field c =
        iterateUpTo (level.step (readUpTo field n) field) k v c' ∧
      c'.words = f :: more ∧ more.length < k ∧ v.bare = e

/-- The level at which an expression within another one is read. -/
def Goal.level : Goal → Level
  | .expression => .expression
  | .disjunction => .disjunction
  | .inversion => .inversion
  | .operand => .bitOr
  | .factor => .factor

theorem Parse.goal_eq (read : Reading) (field : FieldReading) (g : Goal) :
    goal read field g = g.level.parse read field := by
  cases g <;> rfl

/-! ## Openings -/

/-- The tree of an expression tells whether it is starred. -/
theorem Expr.isStarred_bare (e : Expr) : e.bare.isStarred = e.isStarred := by
  obtain ⟨_, shape⟩ := e
  cases shape <;> rfl

/-- What opens a level opens every looser one. -/
theorem Opens.mono {level next : Level} {ws : List Word} {e : Expr} (h : Opens next ws e)
    (hrank : level.rank ≤ next.rank) : Opens level ws e := by
  obtain ⟨w, tail, hws, hw⟩ := h.begins
  exact ⟨⟨w, tail, hws, hw.mono hrank⟩, h.second, h.notStarred⟩

/-- Words in front of a word that is no sign of an assignment open the same levels. -/
theorem Opens.append {level : Level} {ws : List Word} {e e' : Expr} (h : Opens level ws e)
    (he' : e'.isStarred = false) {w : Word} (hw : w.kind ≠ .colonEqual ∧ w.kind ≠ .equal)
    (more : List Word) : Opens level (ws ++ w :: more) e' := by
  obtain ⟨first, tail, rfl, hfirst⟩ := h.begins
  refine ⟨⟨first, tail ++ w :: more, rfl, hfirst⟩, ?_, he'⟩
  cases tail with
  | nil =>
    intro w' hw'
    obtain rfl : w = w' := Option.some.inj hw'
    exact hw
  | cons second tail => exact h.second

/-- A word in front of words that open some level opens its own. -/
theorem Opens.cons {level next : Level} {ws : List Word} {e e' : Expr} (h : Opens next ws e)
    (he' : e'.isStarred = false) {w : Word} (hw : w.kind.Begins level) (more : List Word) :
    Opens level (w :: (ws ++ more)) e' := by
  obtain ⟨first, tail, rfl, l, hl, -⟩ := h.begins
  refine ⟨⟨w, first :: (tail ++ more), rfl, hw⟩, ?_, he'⟩
  intro w' hw'
  obtain rfl : first = w' := Option.some.inj hw'
  constructor <;> intro hkind <;> exact absurd hl (by rw [hkind]; exact nofun)

/-! ## Reading within other readings -/

/-- Words that read as an expression do so within words that are more. -/
theorem Reads.read {g : Goal} {ws : List Word} {e : Expr} (h : Reads g.level ws e)
    (field : FieldReading) {n : Nat} (hn : ws.length < n) {c : Cursor} {f : Word}
    {more : List Word} (hc : c.words = ws ++ f :: more) (hf : f.kind.Ends g.level) :
    ∃ v c', readUpTo field n g c = .ok v c' ∧ c'.words = f :: more ∧ v.bare = e := by
  obtain ⟨n, rfl⟩ := Nat.exists_eq_add_of_lt hn
  rw [readUpTo, goal_eq]
  exact h.run field _ c f more (Nat.le_add_right _ _) hc hf

/-! ## Repeated steps -/

/-- A level does not go on at a word that ends it. -/
theorem Level.step_done {level : Level} (read : Reading) (field : FieldReading) (v : Expr)
    {c : Cursor} {f : Word} {more : List Word} (hc : c.words = f :: more)
    (hf : f.kind.Ends level) (hlevel : level.operand?.isSome ∨ level = .atom) :
    level.step read field v c = .ok (.done v) c := by
  rcases hlevel with hlevel | rfl
  · obtain ⟨next, hnext⟩ := Option.isSome_iff_exists.mp hlevel
    rw [Level.step_of_operand hnext, operation, bind_ok (kind_run hc), hf.operator?_eq_none]
    rfl
  · have hne : ∀ {kind : TokenKind}, ¬ kind.Ends .atom → f.kind ≠ kind := by
      rintro _ hkind rfl
      exact hkind hf
    show trailer read v c = _
    rw [trailer, bind_ok (accept_false hc (hne (by decide)))]
    simp only [Bool.false_eq_true, if_false]
    rw [bind_ok (accept_false hc (hne (by decide)))]
    simp only [Bool.false_eq_true, if_false]
    rw [bind_ok (accept_false hc (hne (by decide)))]
    rfl

/-- Words that lead to an expression read as it where the steps end. -/
theorem Leads.reads {level : Level} {ws : List Word} {e : Expr} (h : Leads level ws e)
    (hlevel : level.operand?.isSome ∨ level = .atom) : Reads level ws e where
  toOpens := h.toOpens
  run := by
    intro field n c f more hn hc hf
    obtain ⟨v, c', k, hrun, hc', hk, hv⟩ := h.run field n c f more hn hc hf.endsAbove
    obtain ⟨k, rfl⟩ := Nat.exists_eq_add_of_lt hk
    refine ⟨v, c', ?_, hc', hv⟩
    rw [hrun]
    exact iterateUpTo_done (Level.step_done _ _ v hc' hf hlevel) _

/-- An operand leads to the level of its operators. -/
theorem Reads.leads {level next : Level} (hnext : level.operand? = some next) {ws : List Word}
    {e : Expr} (h : Reads next ws e) : Leads level ws e where
  toOpens := h.toOpens.mono (by rw [Level.rank_operand hnext]; exact Nat.le_succ _)
  run := by
    intro field n c f more hn hc hf
    obtain ⟨v, c', hrun, hc', hv⟩ := h.run field n c f more hn hc (hf.ends_operand hnext)
    refine ⟨v, c', more.length + 1, ?_, hc', Nat.lt_succ_self _, hv⟩
    rw [Level.parse_eq_leftAssociative hnext, leftAssociative, bind_ok hrun, iterate_run _ _ hc',
      Level.step_of_operand hnext]

/-- A step behind words that lead to an expression leads further. -/
theorem Leads.append {level : Level} {ws ws' : List Word} {w : Word} {e e' : Expr}
    (h : Leads level ws e) (he' : e'.isStarred = false) (habove : w.kind.EndsAbove level)
    (hw : w.kind ≠ .colonEqual ∧ w.kind ≠ .equal)
    (hstep : ∀ (field : FieldReading) (n : Nat) (v : Expr) (c : Cursor) (f : Word)
      (more : List Word), ws'.length < n → v.bare = e → c.words = w :: (ws' ++ f :: more) →
      f.kind.EndsAbove level →
      ∃ v' c', level.step (readUpTo field n) field v c = .ok (.yield v') c' ∧
        c'.words = f :: more ∧ v'.bare = e') :
    Leads level (ws ++ w :: ws') e' where
  toOpens := h.toOpens.append he' hw ws'
  run := by
    intro field n c f more hn hc hf
    rw [List.length_append, List.length_cons] at hn
    rw [List.append_assoc, List.cons_append] at hc
    obtain ⟨v, c₁, k, hrun, hc₁, hk, hv⟩ :=
      h.run field n c w (ws' ++ f :: more) (by omega) hc habove
    obtain ⟨k, rfl⟩ := Nat.exists_eq_add_of_lt hk
    obtain ⟨v', c₂, hrun', hc₂, hv'⟩ := hstep field n v c₁ f more (by omega) hv hc₁ hf
    refine ⟨v', c₂, (ws' ++ f :: more).length + k, ?_, hc₂, ?_, hv'⟩
    · rw [hrun]
      exact iterateUpTo_yield hrun' _
    · rw [List.length_append, List.length_cons]
      omega

/-- An operation leads further at its level. -/
theorem Leads.operation {level next : Level} (hnext : level.operand? = some next)
    {ws ws' : List Word} {l r : Expr} {w : Word} {op : BinaryOperator} (h : Leads level ws l)
    (hop : level.operator? w.kind = some op) (hr : Reads next ws' r) :
    Leads level (ws ++ w :: ws') (.new (.binary op l r)) := by
  have habove : w.kind.EndsAbove level := by
    intro l' hl'
    obtain rfl : level = l' :=
      Option.some.inj ((TokenKind.continues?_of_operator? hop).symm.trans hl')
    exact Nat.le_refl _
  refine h.append rfl habove (TokenKind.kind_ne_of_operator? hop) ?_
  intro field n v c f more hn hv hc hf
  obtain ⟨v', c', hrun, hc', hv'⟩ := hr.run field n c.advance f more (Nat.le_of_lt hn)
    (Cursor.words_advance hc (by simp)) (hf.ends_operand hnext)
  refine ⟨.node (c'.spanFrom v.span.start) (.binary op v v'), c', ?_, hc', ?_⟩
  · rw [Level.step_of_operand hnext, Parse.operation, bind_ok (kind_run hc), hop]
    dsimp only
    rw [bind_ok (next_run c), bind_ok hrun, bind_ok (exprFrom_run _ _ c')]
    rfl
  · rw [Expr.bare, Expr.Shape.bare, hv, hv']
    rfl

/-! ## Atoms -/

/-- A single word that is an atom leads to it. -/
theorem Leads.word {w : Word} {e : Expr} (hw : w.kind.Begins .atom) (he : e.isStarred = false)
    (hrun : ∀ (read : Reading) (field : FieldReading) (c : Cursor) (more : List Word),
      c.words = w :: more → ∃ v, atom read field c = .ok v c.advance ∧ v.bare = e) :
    Leads .atom [w] e where
  begins := ⟨w, [], rfl, hw⟩
  second := nofun
  notStarred := he
  run := by
    intro field n c f more _ hc _
    obtain ⟨v, hrun, hv⟩ := hrun (readUpTo field n) field c (f :: more) hc
    have hadvance := Cursor.words_advance hc (by simp)
    refine ⟨v, c.advance, more.length + 1, ?_, hadvance, Nat.lt_succ_self _, hv⟩
    show primary _ _ c = _
    rw [primary, bind_ok hrun, iterate_run _ _ hadvance]
    rfl

/-- A name. -/
theorem Leads.name {w : Word} (hw : w.kind = .identifier) :
    Leads .atom [w] (.new (.name w.text .load)) := by
  refine Leads.word (by rw [hw]; decide) rfl ?_
  intro read field c more hc
  have hword := Cursor.word_peek hc
  refine ⟨.node (c.advance.spanFrom c.peek.start) (.name c.peek.text .load), ?_, ?_⟩
  · rw [atom, bind_ok (peek_run c), Cursor.kind_peek hc, hw]
    rfl
  · rw [← hword]
    rfl

/-- An integer. -/
theorem Leads.integer {t : Token} (ht : t.kind = .integer) :
    Leads .atom [t.word] (.new (.constant (Literal.number t))) := by
  refine Leads.word (by rw [show t.word.kind = t.kind from rfl, ht]; decide) rfl ?_
  intro read field c more hc
  have hword := Cursor.word_peek hc
  refine ⟨.node (c.advance.spanFrom c.peek.start) (.constant (Literal.number c.peek)), ?_, ?_⟩
  · rw [atom, bind_ok (peek_run c), Cursor.kind_peek hc, show t.word.kind = t.kind from rfl, ht]
    rfl
  · have hkind : c.peek.kind = t.kind := congrArg Word.kind hword
    have htext : c.peek.text = t.text := congrArg Word.text hword
    rw [Expr.bare, Expr.Shape.bare, Literal.number, Literal.number, hkind, htext]
    rfl

/-! ## Parentheses -/

/-- The two words at the cursor do not look like an assignment or a keyword argument. -/
theorem Opens.exists_two {level : Level} {ws : List Word} {e : Expr} (h : Opens level ws e)
    {f : Word} (hf : f.kind ≠ .colonEqual ∧ f.kind ≠ .equal) (more : List Word) :
    ∃ w w' tail, ws ++ f :: more = w :: w' :: tail ∧ w.kind.Begins level ∧
      w'.kind ≠ .colonEqual ∧ w'.kind ≠ .equal := by
  obtain ⟨w, tail, rfl, hw⟩ := h.begins
  cases tail with
  | nil => exact ⟨w, f, more, rfl, hw, hf⟩
  | cons w' tail => exact ⟨w, w', tail ++ f :: more, rfl, hw, h.second w' rfl⟩

/-- A word that begins an expression is none that does not. -/
theorem TokenKind.Begins.ne {kind kind' : TokenKind} {level : Level} (h : kind.Begins level)
    (h' : ¬ kind'.Begins level) : kind ≠ kind' := by
  rintro rfl
  exact h' h

/-- An expression is read where an assignment could stand. -/
theorem Reads.namedExpression {ws : List Word} {e : Expr} (h : Reads .expression ws e)
    (field : FieldReading) {n : Nat} (hn : ws.length < n) {c : Cursor} {f : Word}
    {more : List Word} (hc : c.words = ws ++ f :: more) (hf : f.kind.Ends .expression)
    (hassign : f.kind ≠ .colonEqual ∧ f.kind ≠ .equal) :
    ∃ v c', Parse.namedExpression (readUpTo field n) c = .ok v c' ∧ c'.words = f :: more ∧
      v.bare = e := by
  obtain ⟨v, c', hrun, hc', hv⟩ := h.read field hn (g := .expression) hc hf
  obtain ⟨w, w', tail, hwords, hw, hw', -⟩ := h.exists_two hassign more
  rw [hwords] at hc
  refine ⟨v, c', ?_, hc', hv⟩
  have hplain : (w'.kind == .colonEqual) = false := by simpa using hw'
  rw [Parse.namedExpression, bind_ok (at?_run hc _), bind_ok (kindAt_run hc), hplain,
    Bool.and_false]
  exact hrun

/-- An expression is read where an assignment or a starred one could stand. -/
theorem Reads.starNamed {ws : List Word} {e : Expr} (h : Reads .expression ws e)
    (field : FieldReading) {n : Nat} (hn : ws.length < n) {c : Cursor} {f : Word}
    {more : List Word} (hc : c.words = ws ++ f :: more) (hf : f.kind.Ends .expression)
    (hassign : f.kind ≠ .colonEqual ∧ f.kind ≠ .equal) :
    ∃ v c', Parse.starNamed (readUpTo field n) c = .ok v c' ∧ c'.words = f :: more ∧
      v.bare = e := by
  obtain ⟨v, c', hrun, hc', hv⟩ := h.namedExpression field hn hc hf hassign
  obtain ⟨w, tail, hws, hw⟩ := h.begins
  refine ⟨v, c', ?_, hc', hv⟩
  rw [Parse.starNamed, starredOr, bind_ok (at?_run (by rw [hc, hws]; rfl) _),
    if_neg (by simpa using hw.ne (by decide))]
  exact hrun

/-- An assignment within parentheses. -/
theorem Reads.starNamed_named {ws : List Word} {e : Expr} (h : Reads .expression ws e)
    (field : FieldReading) {n : Nat} {c : Cursor} {name sign f : Word} {more : List Word}
    (hn : ws.length < n) (hname : name.kind = .identifier) (hsign : sign.kind = .colonEqual)
    (hc : c.words = name :: sign :: (ws ++ f :: more)) (hf : f.kind.Ends .expression) :
    ∃ v c', Parse.starNamed (readUpTo field n) c = .ok v c' ∧ c'.words = f :: more ∧
      v.bare = .new (.named (.new (.name name.text .store)) e) := by
  have hc₁ := Cursor.words_advance hc (by simp)
  have hc₂ := Cursor.words_advance hc₁ (by simp)
  obtain ⟨v, c', hrun, hc', hv⟩ := h.read field hn (g := .expression) hc₂ hf
  have hword := Cursor.word_peek hc
  refine ⟨.node (c'.spanFrom c.peek.start) (.named (.node (c.advance.advance.spanFrom c.peek.start)
    (.name c.peek.text .store)) v), c', ?_, hc', ?_⟩
  · rw [Parse.starNamed, starredOr, bind_ok (at?_run hc _), hname]
    simp only [show (TokenKind.identifier == .star) = false from rfl, Bool.false_eq_true, if_false]
    rw [Parse.namedExpression, bind_ok (at?_run hc _), bind_ok (kindAt_run hc), hname, hsign]
    simp only [show (TokenKind.identifier == .identifier) = true from rfl,
      show (TokenKind.colonEqual == .colonEqual) = true from rfl, Bool.and_self, if_true]
    rw [bind_ok (next_run c), bind_ok (next_run c.advance), nameOf, bind_ok (exprFrom_run _ _ _),
      bind_ok hrun]
    rfl
  · rw [Expr.bare, Expr.Shape.bare, hv, ← hword]
    rfl

/-- No comprehension clause begins at a word that begins none. -/
theorem Parse.startsClause_false {c : Cursor} {w : Word} {ws : List Word} (hc : c.words = w :: ws)
    (hfor : w.kind ≠ .kwFor) (hasync : w.kind ≠ .kwAsync) : startsClause c = .ok false c := by
  rw [startsClause, bind_ok (at?_run hc _), show (w.kind == .kwFor) = false by simpa using hfor]
  simp only [Bool.false_eq_true, if_false]
  rw [bind_ok (at?_run hc _), show (w.kind == .kwAsync) = false by simpa using hasync]
  rfl

/-- The reading of parentheses with something in them looks at the first expression in them. -/
theorem Parse.parenthesized_run {read : Reading} {start : Position} {c c' : Cursor} {w f : Word}
    {tail more : List Word} {v : Expr} (hc : c.words = w :: tail)
    (hclose : w.kind ≠ .closeParen) (hyield : w.kind ≠ .kwYield)
    (hrun : starNamed read c = .ok v c') (hc' : c'.words = f :: more) (hfor : f.kind ≠ .kwFor)
    (hasync : f.kind ≠ .kwAsync) :
    parenthesized read start c =
      (do
        if ← accept .closeParen then
          if v.isStarred then failAtSpan .starredInParentheses v.span else return v
        else
          let rest ← moreItems (at? .closeParen) (starNamed read)
          expect .parenClose
          exprFrom start (.tuple (v :: rest) .load) : Parse Expr) c' := by
  rw [parenthesized, bind_ok (accept_false hc hclose)]
  simp only [Bool.false_eq_true, if_false]
  rw [bind_ok (at?_run hc _), show (w.kind == .kwYield) = false by simpa using hyield]
  simp only [Bool.false_eq_true, if_false]
  rw [bind_ok hrun, bind_ok (startsClause_false hc' hfor hasync)]
  rfl

/-- What leads to an atom from a parenthesis on. -/
theorem Leads.parenthesized {w : Word} {ws : List Word} {e : Expr} (hw : w.kind = .openParen)
    (hopen : Opens .atom (w :: ws) e)
    (hrun : ∀ (field : FieldReading) (n : Nat) (start : Position) (c : Cursor) (f : Word)
      (more : List Word), ws.length < n → c.words = ws ++ f :: more →
      ∃ v c', Parse.parenthesized (readUpTo field n) start c = .ok v c' ∧ c'.words = f :: more ∧
        v.bare = e) :
    Leads .atom (w :: ws) e where
  toOpens := hopen
  run := by
    intro field n c f more hn hc _
    obtain ⟨v, c', hrun, hc', hv⟩ := hrun field n c.peek.start c.advance f more hn
      (Cursor.words_advance hc (by simp))
    refine ⟨v, c', more.length + 1, ?_, hc', Nat.lt_succ_self _, hv⟩
    have hatom : atom (readUpTo field n) field c = .ok v c' := by
      rw [atom, bind_ok (peek_run c), Cursor.kind_peek hc, hw]
      exact hrun
    show primary _ _ c = _
    rw [primary, bind_ok hatom, iterate_run _ _ hc']
    rfl

/-- A single expression in parentheses. -/
theorem Leads.group {ws : List Word} {e : Expr} {o close : Word} (ho : o.kind = .openParen)
    (hclose : close.kind = .closeParen) (h : Reads .expression ws e) :
    Leads .atom (o :: (ws ++ [close])) e := by
  refine Leads.parenthesized ho (h.toOpens.cons h.notStarred (by rw [ho]; decide) [close]) ?_
  intro field n start c f more hn hc
  rw [List.append_assoc, List.singleton_append] at hc
  rw [List.length_append, List.length_singleton] at hn
  obtain ⟨v, c', hrun, hc', hv⟩ := h.starNamed field (Nat.lt_of_succ_lt hn) hc
    (by rw [hclose]; decide) (by rw [hclose]; decide)
  obtain ⟨w, tail, rfl, hw⟩ := h.begins
  have hstarred : v.isStarred = false := by rw [← Expr.isStarred_bare, hv, h.notStarred]
  refine ⟨v, c'.advance, ?_, Cursor.words_advance hc' (by simp), hv⟩
  rw [parenthesized_run hc (hw.ne (by decide)) (hw.ne (by decide)) hrun hc'
    (by rw [hclose]; decide) (by rw [hclose]; decide), bind_ok (accept_true hc' hclose)]
  simp only [hstarred, if_true, Bool.false_eq_true, if_false]
  rfl

end SyntaxTree
