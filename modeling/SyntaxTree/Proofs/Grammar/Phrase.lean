import SyntaxTree.Proofs.Grammar.Argument

/-
# Items between commas

Tuples with and without parentheses, the arguments of calls and what stands between the brackets of
a subscript are lists of expressions with commas between them.
-/

namespace SyntaxTree

open Parse

/-! ## Items of a tuple -/

/-- Words that are the items of a tuple: one with a comma behind it, or several with commas between
them. -/
inductive TupleItems : List Word → List Expr → Prop where
  | single {ws : List Word} {e : Expr} {comma : Word} (h : Reads .expression ws e)
    (hcomma : comma.kind = .comma) : TupleItems (ws ++ [comma]) [e]
  | several {ws : List Word} {e : Expr} {rest : List (Further Unit)} (h : Reads .expression ws e)
    (hrest : rest ≠ []) (hsigns : ∀ x ∈ rest, ∃ w, x.sign = [w] ∧ w.kind = .comma)
    (hitems : ∀ x ∈ rest, Reads .expression x.words x.value) :
    TupleItems (ws ++ rest.flatMap Further.all) (e :: rest.map Further.value)

/-- A reading of items up to a closing word, which tells where they stop; an item holds an
expression. -/
structure ItemReading {α : Type} (value : α → Expr) (n : Nat) (item : Parse α) (stops : Parse Bool)
    (close : TokenKind) : Prop where
  reads : ∀ {ws : List Word} {e : Expr}, Reads .expression ws e → ws.length < n →
    ∀ {c : Cursor} {f : Word} {more : List Word}, c.words = ws ++ f :: more →
      f.kind = .comma ∨ f.kind = close →
      ∃ v c', item c = .ok v c' ∧ c'.words = f :: more ∧ (value v).bare = e
  ends : ∀ {c : Cursor} {w : Word} {ws : List Word}, c.words = w :: ws → w.kind = close →
    stops c = .ok true c
  goesOn : ∀ {c : Cursor} {w : Word} {ws : List Word}, c.words = w :: ws →
    w.kind.Begins .expression → stops c = .ok false c

/-- A further item is read behind its comma. -/
theorem ItemReading.furtherItem_reads {α : Type} {value : α → Expr} {n : Nat} {item : Parse α}
    {stops : Parse Bool} {close : TokenKind} (hitem : ItemReading value n item stops close)
    {x : Further Unit} {w : Word} (hsign : x.sign = [w]) (hw : w.kind = .comma)
    (hx : Reads .expression x.words x.value) (hn : x.words.length < n) :
    ReadsItem (furtherItem stops item) (fun kind => kind = .comma ∨ kind = close) x.all
      (fun v => (value v).bare = x.value) where
  begins := ⟨w, x.words, by rw [Further.all, hsign]; rfl, .inl hw⟩
  run := by
    intro c f more hc hf
    rw [Further.all, hsign] at hc
    have hadvance := Cursor.words_advance hc (by simp)
    obtain ⟨v, c', hrun, hc', hv⟩ := hitem.reads hx hn hadvance hf
    obtain ⟨first, tail, hws, hfirst⟩ := hx.begins
    refine ⟨v, c', ?_, hc', hv⟩
    rw [furtherItem, bind_ok (accept_true hc hw)]
    simp only [if_true]
    rw [bind_ok (hitem.goesOn (by rw [hadvance, hws]; rfl) hfirst)]
    simp only [Bool.false_eq_true, if_false]
    rw [bind_ok hrun]
    rfl

/-- The first item of a tuple is read, and then all others. -/
theorem TupleItems.run {ws : List Word} {es : List Expr} (h : TupleItems ws es) {α : Type}
    {value : α → Expr} {n : Nat} {item : Parse α} {stops : Parse Bool} {close : TokenKind}
    (hitem : ItemReading value n item stops close) (hclose : close ≠ .comma) (hn : ws.length < n)
    {c : Cursor} {f : Word} {more : List Word} (hc : c.words = ws ++ f :: more)
    (hf : f.kind = close) :
    ∃ v c₁ comma tail as c₂, item c = .ok v c₁ ∧ c₁.words = comma :: tail ∧
      comma.kind = .comma ∧ moreItems stops item c₁ = .ok as c₂ ∧ c₂.words = f :: more ∧
      Expr.bareAll ((v :: as).map value) = es := by
  cases h with
  | @single ws e comma h hcomma =>
    rw [List.append_assoc, List.singleton_append] at hc
    rw [List.length_append, List.length_singleton] at hn
    obtain ⟨v, c₁, hrun, hc₁, hv⟩ := hitem.reads h (by omega) hc (.inl hcomma)
    have hadvance := Cursor.words_advance hc₁ (by simp)
    -- The comma is taken before the parser sees that no item follows it.
    have hnone : furtherItem stops item c₁ = .ok none c₁.advance := by
      rw [furtherItem, bind_ok (accept_true hc₁ hcomma)]
      simp only [if_true]
      rw [bind_ok (hitem.ends hadvance hf)]
      rfl
    refine ⟨v, c₁, comma, _, [], c₁.advance, hrun, hc₁, hcomma, ?_, hadvance, ?_⟩
    · exact (collect_run _ hc₁).trans (collectUpTo_none hnone _)
    · rw [List.map_cons, Expr.bareAll, hv]
      rfl
  | @several ws e rest h hrest hsigns hitems =>
    rw [List.append_assoc] at hc
    rw [List.length_append] at hn
    have hreads : ∀ x ∈ rest, ReadsItem (furtherItem stops item)
        (fun kind => kind = .comma ∨ kind = close) x.all (fun v => (value v).bare = x.value) := by
      intro x hx
      have := Further.length_words_le hx
      obtain ⟨w, hsign, hw⟩ := hsigns x hx
      exact hitem.furtherItem_reads hsign hw (hitems x hx) (by omega)
    -- Without a trailing comma the loop ends where no comma stands.
    have hstop : ∀ c : Cursor, c.words = f :: more →
        ∃ c', furtherItem stops item c = .ok none c' ∧ c'.words = f :: more := by
      intro c hc
      refine ⟨c, ?_, hc⟩
      rw [furtherItem, bind_ok (accept_false hc (hf.trans_ne hclose))]
      rfl
    obtain ⟨x, rest', rfl⟩ := List.exists_cons_of_ne_nil hrest
    obtain ⟨comma, hsign, hcomma⟩ := hsigns x (by simp)
    have hwords : (x :: rest').flatMap Further.all ++ f :: more =
        comma :: (x.words ++ (rest'.flatMap Further.all ++ f :: more)) := by
      rw [List.flatMap_cons, Further.all, hsign]
      simp
    obtain ⟨v, c₁, hrun, hc₁, hv⟩ := hitem.reads h (by omega) (hc.trans (by rw [hwords]))
      (.inl hcomma)
    obtain ⟨as, c₂, hcollect, hc₂, has⟩ :=
      collect_items hreads (.inr hf) hstop (hc₁.trans hwords.symm)
    refine ⟨v, c₁, comma, _, as, c₂, hrun, hc₁, hcomma, hcollect, hc₂, ?_⟩
    rw [List.map_cons, Expr.bareAll, hv, Expr.bareAll_eq (List.forall₂_map_left_iff.mpr has)]

/-- The items of a tuple begin with an expression and cannot be taken for an assignment. -/
theorem TupleItems.opens {ws : List Word} {es : List Expr} (h : TupleItems ws es) :
    Opens .expression ws (.new (.tuple es .load)) := by
  cases h with
  | single h hcomma => exact h.toOpens.append rfl (by rw [hcomma]; decide) []
  | several h hrest hsigns _ =>
    refine h.toOpens.append_further rfl hrest fun x hx => ?_
    obtain ⟨w, hsign, hw⟩ := hsigns x hx
    exact ⟨w, [], hsign, by rw [hw]; decide⟩

/-! ## Tuples -/

/-- The items within parentheses. -/
theorem ItemReading.starNamed (field : FieldReading) (n : Nat) :
    ItemReading id n (Parse.starNamed (readUpTo field n)) (at? .closeParen) .closeParen where
  reads := by
    intro ws e h hn c f more hc hf
    have hends : f.kind.Ends .expression ∧ f.kind ≠ .colonEqual ∧ f.kind ≠ .equal := by
      obtain hf | hf := hf <;> rw [hf] <;> decide
    exact h.starNamed field hn hc hends.1 hends.2
  ends hc hw := by
    rw [at?_run hc, hw]
    rfl
  goesOn hc hw := by
    rw [at?_run hc, show (_ == TokenKind.closeParen) = false by simpa using hw.ne (by decide)]

/-- The words that begin an expression or a star. -/
def TokenKind.startsItem : TokenKind → Bool
  | .identifier | .integer | .float | .imaginary | .string | .bytes | .fstring | .boolean
  | .noneWord | .ellipsis | .openParen | .openBracket | .openBrace | .minus | .plus | .tilde
  | .kwNot | .kwLambda | .kwAwait | .star => true
  | _ => false

/-- A word that begins an expression begins an item. -/
theorem TokenKind.Begins.startsItem {kind : TokenKind} (h : kind.Begins .expression) :
    kind.startsItem = true := by
  cases kind <;> first | rfl | exact absurd h (by decide)

theorem Parse.startsStarred_run {c : Cursor} {w : Word} {ws : List Word} (hc : c.words = w :: ws) :
    startsStarred c = .ok w.kind.startsItem c := by
  rw [startsStarred, startsExpression, bind_assoc, bind_ok (kind_run hc)]
  have hstar := at?_run hc .star
  cases hkind : w.kind <;> first | rfl | exact hstar.trans (by rw [hkind]; rfl)

/-- The items of a tuple stop where a word begins none. -/
theorem Parse.startsNoItem_run {c : Cursor} {w : Word} {ws : List Word} (hc : c.words = w :: ws) :
    startsNoItem c = .ok (!w.kind.startsItem) c := by
  rw [startsNoItem, bind_ok (startsStarred_run hc)]
  rfl

/-- The items of a tuple without parentheses. -/
theorem ItemReading.starExpression (field : FieldReading) (n : Nat) :
    ItemReading id n (Parse.starExpression (readUpTo field n)) startsNoItem .newline where
  reads := by
    intro ws e h hn c f more hc hf
    have hends : f.kind.Ends .expression := by
      obtain hf | hf := hf <;> rw [hf] <;> decide
    obtain ⟨w, tail, hws, hw⟩ := h.begins
    rw [starExpression_run (by rw [hc, hws]; rfl) (hw.ne (by decide))]
    exact h.read (g := .expression) field hn hc hends
  ends hc hw := by
    rw [startsNoItem_run hc, hw]
    rfl
  goesOn hc hw := by
    rw [startsNoItem_run hc, hw.startsItem]
    rfl

/-- The items between the brackets of a subscript. -/
theorem ItemReading.sliceOrIndex (field : FieldReading) (n : Nat) :
    ItemReading id n (Parse.sliceOrIndex (readUpTo field n)) (at? .closeBracket) .closeBracket where
  reads := by
    intro ws e h hn c f more hc hf
    have hends : f.kind.Ends .expression ∧ f.kind ≠ .colonEqual ∧ f.kind ≠ .equal ∧
        f.kind ≠ .colon := by
      obtain hf | hf := hf <;> rw [hf] <;> decide
    obtain ⟨v, c', hrun, hc', hv⟩ :=
      h.namedExpression field hn hc hends.1 ⟨hends.2.1, hends.2.2.1⟩
    obtain ⟨w, tail, hws, hw⟩ := h.begins
    have hkind : c.peek.kind = w.kind := Cursor.kind_peek (by rw [hc, hws]; rfl)
    refine ⟨v, c', ?_, hc', hv⟩
    rw [Parse.sliceOrIndex, bind_ok (peek_run c), hkind, if_neg (hw.ne (by decide)),
      if_neg (hw.ne (by decide)), bind_ok hrun, bind_ok (at?_run hc' _),
      if_neg (by simpa using hends.2.2.2)]
    rfl
  ends hc hw := by
    rw [at?_run hc, hw]
    rfl
  goesOn hc hw := by
    rw [at?_run hc, show (_ == TokenKind.closeBracket) = false by simpa using hw.ne (by decide)]

/-- Items without parentheses read as a tuple. -/
theorem TupleItems.readsList {ws : List Word} {es : List Expr} (h : TupleItems ws es) :
    ReadsList ws (.new (.tuple es .load)) where
  begins := by
    obtain ⟨w, tail, hws, hw⟩ := h.opens.begins
    exact ⟨w, tail, hws, hw.ne (by decide), hw.ne (by decide)⟩
  run := by
    intro field n c f more hn hc hf
    obtain ⟨v, c₁, comma, tail, as, c₂, hrun, hc₁, hcomma, hrest, hc₂, hvs⟩ :=
      h.run (.starExpression field n) (by decide) hn hc hf
    refine ⟨.node (c₂.spanFrom v.span.start) (.tuple (v :: as) .load), c₂, ?_, hc₂, ?_⟩
    · rw [starExpressions, tupleOf, bind_ok hrun, bind_ok (at?_run hc₁ _),
        if_pos (by simpa using hcomma), bind_ok hrest]
      rfl
    · rw [Expr.bare, Expr.Shape.bare, ← hvs, List.map_id]
      rfl

/-- Items in parentheses are a tuple. -/
theorem Leads.tuple {ws : List Word} {es : List Expr} {o close : Word} (ho : o.kind = .openParen)
    (hclose : close.kind = .closeParen) (h : TupleItems ws es) :
    Leads .atom (o :: (ws ++ [close])) (.new (.tuple es .load)) := by
  refine Leads.parenthesized ho (h.opens.cons rfl (by rw [ho]; decide) [close]) ?_
  intro field n start c f more hn hc
  rw [List.append_assoc, List.singleton_append] at hc
  rw [List.length_append, List.length_singleton] at hn
  obtain ⟨v, c₁, comma, tail, as, c₂, hrun, hc₁, hcomma, hrest, hc₂, hvs⟩ :=
    h.run (.starNamed field n) (by decide) (by omega) hc hclose
  obtain ⟨w, tail', hws, hw⟩ := h.opens.begins
  refine ⟨.node (c₂.advance.spanFrom start) (.tuple (v :: as) .load), c₂.advance, ?_,
    Cursor.words_advance hc₂ (by simp), ?_⟩
  · rw [parenthesized_run (by rw [hc, hws]; rfl) (hw.ne (by decide)) (hw.ne (by decide)) hrun hc₁
      (by rw [hcomma]; decide) (by rw [hcomma]; decide),
      bind_ok (accept_false hc₁ (by rw [hcomma]; decide))]
    simp only [Bool.false_eq_true, if_false]
    rw [bind_ok hrest, bind_ok (expect_run .parenClose hc₂ hclose)]
    rfl
  · rw [Expr.bare, Expr.Shape.bare, ← hvs, List.map_id]
    rfl

/-- Empty parentheses are a tuple of no items. -/
theorem Leads.emptyTuple {o close : Word} (ho : o.kind = .openParen)
    (hclose : close.kind = .closeParen) : Leads .atom [o, close] (.new (.tuple [] .load)) := by
  have hopens : Opens .atom [o, close] (.new (.tuple [] .load)) := by
    refine ⟨⟨o, [close], rfl, by rw [ho]; decide⟩, ?_, rfl⟩
    intro w hw
    obtain rfl : close = w := Option.some.inj hw
    rw [hclose]
    decide
  refine Leads.parenthesized ho hopens ?_
  intro field n start c f more _ hc
  refine ⟨.node (c.advance.spanFrom start) (.tuple [] .load), c.advance, ?_,
    Cursor.words_advance hc (by simp), rfl⟩
  rw [Parse.parenthesized, bind_ok (accept_true hc hclose)]
  rfl

/-- An assignment in parentheses. -/
theorem Leads.named {o name sign close : Word} {ws : List Word} {e : Expr}
    (ho : o.kind = .openParen) (hname : name.kind = .identifier) (hsign : sign.kind = .colonEqual)
    (hclose : close.kind = .closeParen) (h : Reads .expression ws e) :
    Leads .atom (o :: name :: sign :: (ws ++ [close]))
      (.new (.named (.new (.name name.text .store)) e)) := by
  have hopens : Opens .atom (o :: name :: sign :: (ws ++ [close]))
      (.new (.named (.new (.name name.text .store)) e)) := by
    refine ⟨⟨o, _, rfl, by rw [ho]; decide⟩, ?_, rfl⟩
    intro w hw
    obtain rfl : name = w := Option.some.inj hw
    rw [hname]
    decide
  refine Leads.parenthesized ho hopens ?_
  intro field n start c f more hn hc
  simp only [List.length_cons, List.length_append, List.length_nil] at hn
  rw [List.cons_append, List.cons_append, List.append_assoc, List.singleton_append] at hc
  obtain ⟨v, c', hrun, hc', hv⟩ := h.starNamed_named field (n := n) (by omega) hname hsign hc
    (by rw [hclose]; decide)
  have hstarred : v.isStarred = false := by rw [← Expr.isStarred_bare, hv]; rfl
  refine ⟨v, c'.advance, ?_, Cursor.words_advance hc' (by simp), hv⟩
  rw [parenthesized_run hc (by rw [hname]; decide) (by rw [hname]; decide) hrun hc'
    (by rw [hclose]; decide) (by rw [hclose]; decide), bind_ok (accept_true hc' hclose)]
  simp only [hstarred, if_true, Bool.false_eq_true, if_false]
  rfl

/-! ## Attributes, calls and subscripts -/

/-- An attribute of an atom. -/
theorem Leads.attribute {ws : List Word} {e : Expr} {dot name : Word} (h : Leads .atom ws e)
    (hdot : dot.kind = .dot) (hname : name.kind = .identifier) :
    Leads .atom (ws ++ [dot, name]) (.new (.attribute e name.text .load)) := by
  refine h.append rfl (by rw [hdot]; decide) (by rw [hdot]; decide) ?_
  intro field n v c f more _ hv hc _
  have hc₁ := Cursor.words_advance hc (by simp)
  have hword := Cursor.word_peek hc₁
  refine ⟨.node (c.advance.advance.spanFrom v.span.start)
    (.attribute v c.advance.peek.text .load), c.advance.advance, ?_,
    Cursor.words_advance hc₁ (by simp), ?_⟩
  · show trailer _ v c = _
    rw [trailer, bind_ok (accept_true hc hdot)]
    simp only [if_true]
    rw [expectName, bind_assoc, bind_ok (at?_run hc₁ _), if_pos (by simpa using hname),
      bind_ok (next_run _)]
    rfl
  · rw [Expr.bare, Expr.Shape.bare, hv, ← hword]
    rfl

/-- Words that read as the index of a subscript. -/
structure ReadsIndex (ws : List Word) (e : Expr) : Prop where
  run : ∀ (field : FieldReading) (n : Nat) (c : Cursor) (f : Word) (more : List Word),
    ws.length < n → c.words = ws ++ f :: more → f.kind = .closeBracket →
    ∃ v c', slices (readUpTo field n) c = .ok v c' ∧ c'.words = f :: more ∧ v.bare = e

/-- An expression is an index. -/
theorem Reads.index {ws : List Word} {e : Expr} (h : Reads .expression ws e) : ReadsIndex ws e where
  run := by
    intro field n c f more hn hc hf
    obtain ⟨v, c', hrun, hc', hv⟩ :=
      (ItemReading.sliceOrIndex field n).reads h hn hc (.inr hf)
    refine ⟨v, c', ?_, hc', hv⟩
    rw [slices, tupleOf, bind_ok hrun, bind_ok (at?_run hc' _),
      if_neg (by simpa using hf.trans_ne (by decide))]
    rfl

/-- Items without parentheses are a tuple as an index. -/
theorem TupleItems.index {ws : List Word} {es : List Expr} (h : TupleItems ws es) :
    ReadsIndex ws (.new (.tuple es .load)) where
  run := by
    intro field n c f more hn hc hf
    obtain ⟨v, c₁, comma, tail, as, c₂, hrun, hc₁, hcomma, hrest, hc₂, hvs⟩ :=
      h.run (.sliceOrIndex field n) (by decide) hn hc hf
    refine ⟨.node (c₂.spanFrom v.span.start) (.tuple (v :: as) .load), c₂, ?_, hc₂, ?_⟩
    · rw [slices, tupleOf, bind_ok hrun, bind_ok (at?_run hc₁ _),
        if_pos (by simpa using hcomma), bind_ok hrest]
      rfl
    · rw [Expr.bare, Expr.Shape.bare, ← hvs, List.map_id]
      rfl

/-- A subscript of an atom. -/
theorem Leads.subscript {ws ws' : List Word} {e index : Expr} {o close : Word}
    (h : Leads .atom ws e) (ho : o.kind = .openBracket) (hindex : ReadsIndex ws' index)
    (hclose : close.kind = .closeBracket) :
    Leads .atom (ws ++ o :: (ws' ++ [close])) (.new (.subscript e index .load)) := by
  refine h.append rfl (by rw [ho]; decide) (by rw [ho]; decide) ?_
  intro field n v c f more hn hv hc _
  rw [List.length_append, List.length_singleton] at hn
  rw [List.append_assoc, List.singleton_append] at hc
  obtain ⟨v', c', hrun, hc', hv'⟩ := hindex.run field n c.advance close (f :: more) (by omega)
    (Cursor.words_advance hc (by simp)) hclose
  refine ⟨.node (c'.advance.spanFrom v.span.start) (.subscript v v' .load), c'.advance, ?_,
    Cursor.words_advance hc' (by simp), ?_⟩
  · show trailer _ v c = _
    rw [trailer, bind_ok (accept_false hc (by rw [ho]; decide))]
    simp only [Bool.false_eq_true, if_false]
    rw [bind_ok (accept_false hc (by rw [ho]; decide))]
    simp only [Bool.false_eq_true, if_false]
    rw [bind_ok (accept_true hc ho)]
    simp only [if_true]
    rw [bind_ok hrun, bind_ok (expect_run .subscriptClose hc' hclose)]
    rfl
  · rw [Expr.bare, Expr.Shape.bare, hv, hv']
    rfl

/-- A call of an atom with a legal list of arguments. -/
theorem Leads.call {ws : List Word} {e : Expr} {items : List ArgumentItem} {wss : List (List Word)}
    {o close : Word} (h : Leads .atom ws e) (ho : o.kind = .openParen)
    (hitems : List.Forall₂ ReadsArgument items wss) (hlegal : ArgumentItem.Legal items)
    (hclose : close.kind = .closeParen) :
    Leads .atom (ws ++ o :: ([Word.comma].intercalate wss ++ [close]))
      (.new (.call e (items.filterMap ArgumentItem.positional?)
        (items.filterMap ArgumentItem.keyword?))) := by
  refine h.append rfl (by rw [ho]; decide) (by rw [ho]; decide) ?_
  intro field n v c f more hn hv hc _
  rw [List.length_append, List.length_singleton] at hn
  rw [List.append_assoc, List.singleton_append] at hc
  have hadvance := Cursor.words_advance hc (by simp)
  rw [← List.append_nil ([Word.comma].intercalate wss)] at hadvance
  obtain ⟨draft, c', hrun, hc', hs⟩ :=
    arguments_run hitems field (n := n) (by omega) (.inl rfl) hadvance hclose hlegal
  refine ⟨.node (c'.spanFrom v.span.start) (.call v draft.positional draft.keywords), c', ?_, hc',
    ?_⟩
  · show trailer _ v c = _
    rw [trailer, bind_ok (accept_false hc (by rw [ho]; decide))]
    simp only [Bool.false_eq_true, if_false]
    rw [bind_ok (accept_true hc ho)]
    simp only [if_true]
    rw [bind_ok hrun]
    rfl
  · rw [Expr.bare, Expr.Shape.bare, hv, Expr.bareAll_eq_map, Keyword.bareAll_eq_map, hs.positional,
      hs.keywords]
    rfl

/-! ## Lambdas -/

/-- A lambda without parameters. -/
theorem Reads.lambda {w colon : Word} {ws : List Word} {e : Expr} (hw : w.kind = .kwLambda)
    (hcolon : colon.kind = .colon) (h : Reads .expression ws e) :
    Reads .expression (w :: colon :: ws) (.new (.lambda (.mk [] [] none [] none []) e)) where
  begins := ⟨w, _, rfl, by rw [hw]; decide⟩
  second := by
    intro w' hw'
    obtain rfl : colon = w' := Option.some.inj hw'
    rw [hcolon]
    decide
  notStarred := rfl
  run := by
    intro field n c f more hn hc hf
    simp only [List.length_cons] at hn
    have hc₁ := Cursor.words_advance hc (by simp)
    obtain ⟨v, c', hrun, hc', hv⟩ := h.read (g := .expression) field (n := n) (by omega)
      (Cursor.words_advance hc₁ (by simp)) hf
    have hparameters : Parse.parameters (readUpTo field n) .colon false c.advance =
        .ok (.mk [] [] none [] none []) c.advance := by
      have hdone : parameterStep (readUpTo field n) .colon false .empty c.advance =
          .ok (.done .empty) c.advance := by
        rw [parameterStep, pieceStep, bind_ok (at?_run hc₁ _), if_pos (by simpa using hcolon)]
        rfl
      rw [Parse.parameters, bind_ok ((iterate_run _ _ hc₁).trans (iterateUpTo_done hdone _))]
      rfl
    refine ⟨.node (c'.spanFrom c.peek.start) (.lambda (.mk [] [] none [] none []) v), c', ?_, hc',
      ?_⟩
    · show Parse.expression _ _ c = _
      rw [Parse.expression, bind_ok (at?_run hc _), if_pos (by simpa using hw), Parse.lambda,
        bind_ok (next_run c), bind_ok hparameters, expectColon,
        bind_ok (expect_run (.colon .lambdaParameters) hc₁ hcolon), bind_ok hrun]
      rfl
    · rw [Expr.bare, Expr.Shape.bare, hv]
      rfl

end SyntaxTree
