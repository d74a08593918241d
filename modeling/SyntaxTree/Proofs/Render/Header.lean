import SyntaxTree.Proofs.Grammar.Compound
import SyntaxTree.Proofs.Render.Tree
import SyntaxTree.Render.Statement
import SyntaxTree.Unicode.NameTable

/-
# Headers with tuples

Two headers lose the parentheses of a tuple.  A condition that is a tuple is written without them,
and what is written is no condition.  A context manager that is a tuple is written, where the line
is short enough, like a list of context managers, and read as one.
-/

namespace SyntaxTree

open Parse

/-! ## Written modules -/

/-- A module is written line by line, the first one without a margin. -/
theorem Module.write_cons {m : Module} (hmode : m.mode = .exec) {stmt : Stmt} {rest : List Stmt}
    (hbody : m.body = stmt :: rest) {style : Style} {header : Bytes} {behind : List Line}
    (hlines : stmt.lines style 0 = .code 0 header :: behind) :
    ∃ s, m.write style = header ++ text "\n" ++ s := by
  have hmargin : style.margin 0 = [] := by rw [Style.margin, Nat.zero_mul]; rfl
  refine ⟨Line.writeAll style (behind ++ Stmt.linesAll style 0 rest), ?_⟩
  rw [write, hmode, hbody, Stmt.linesAll, hlines, List.cons_append]
  simp only [Line.writeAll, List.flatMap_cons, Line.write, hmargin, List.nil_append]

/-! ## Conditions -/

/-- Statements that begin with a word and a condition. -/
inductive Stmt.Tests (test : Expr) : Bytes → Stmt → Prop where
  | whileLoop (span : Span) (body orelse : List Stmt) :
    Tests test (text "while") (.node span (.whileLoop test body orelse))
  | conditional (span : Span) (body orelse : List Stmt) :
    Tests test (text "if") (.node span (.conditional test body orelse))

theorem Stmt.Tests.exists_lines {test : Expr} {word : Bytes} {stmt : Stmt}
    (h : stmt.Tests test word) (style : Style) (depth : Nat) : ∃ behind, stmt.lines style depth =
      .code depth (word ++ text " " ++ test.write style.quote .named ++ text ":") :: behind := by
  cases h with
  | whileLoop span body orelse => exact ⟨_, rfl⟩
  | conditional span body orelse => exact ⟨_, rfl⟩

/-- The word that begins a condition and its statement. -/
theorem Stmt.Tests.isKeyword {test : Expr} {word : Bytes} {stmt : Stmt} (h : stmt.Tests test word) :
    IsWord word ∧ (TokenKind.ofWord word = .kwWhile ∨ TokenKind.ofWord word = .kwIf) := by
  cases h with
  | whileLoop span body orelse => exact ⟨⟨_, _, rfl, rfl, rfl⟩, .inl rfl⟩
  | conditional span body orelse => exact ⟨⟨_, _, rfl, rfl, rfl⟩, .inr rfl⟩

/-- The first item of a tuple has a comma behind it. -/
theorem exists_tupleText_cons (item : Bytes) (items : List Bytes) :
    ∃ s, tupleText (item :: items) = item ++ (text "," ++ s) := by
  rw [tupleText, commaSeparated, Bytes.joinWith_cons]
  cases items with
  | nil => exact ⟨[], by simp⟩
  | cons next items => exact ⟨_, by simp; rfl⟩

/-- A condition is not read if a comma stands behind its first expression. -/
theorem Parse.branch_ne_ok {header : Header} {field : FieldReading} {n : Nat}
    {inner : Parse (List Stmt)} {c c' : Cursor} {w comma : Word} {ws tail : List Word} {e : Expr}
    {b : Branch} (hc : c.words = w :: (ws ++ comma :: tail)) (hread : Reads .expression ws e)
    (hn : ws.length < n) (hcomma : comma.kind = .comma) :
    branch header (readUpTo field n) inner c ≠ .ok b c' := by
  intro h
  have hadvance := Cursor.words_advance hc (by simp)
  obtain ⟨v, c₁, hrun, hc₁, -⟩ :=
    hread.namedExpression field hn hadvance (by rw [hcomma]; decide) (by rw [hcomma]; decide)
  have hcolon : ∀ d, expectColon header c₁ ≠ .ok () d := by
    intro d hd
    have hne : comma.kind ≠ (Missing.colon header).kind := by
      rw [hcomma]
      exact (by decide : TokenKind.comma ≠ .colon)
    rw [expectColon, expect, bind_ok (accept_false hc₁ hne)] at hd
    cases hd
  rw [branch, bind_ok (next_run c), bind_ok hrun] at h
  obtain ⟨body, c₂, hbody, -⟩ := Parse.exists_of_bind_eq_ok h
  obtain ⟨_, c₃, hd, -⟩ := Parse.exists_of_bind_eq_ok hbody
  exact hcolon c₃ hd

/-- A statement with a condition is read by reading the condition first. -/
theorem Parse.exists_branch_of_statements {read : Reading} {field : FieldReading}
    {inner : Parse (List Stmt)} {c c' : Cursor} {stmts : List Stmt}
    (hkind : c.peek.kind = .kwWhile ∨ c.peek.kind = .kwIf)
    (h : statements read field inner c = .ok stmts c') :
    ∃ header b c₁, branch header read inner c = .ok b c₁ := by
  rw [statements, bind_ok (peek_run c)] at h
  rcases hkind with hkind | hkind
  · rw [hkind] at h
    obtain ⟨stmt, c₁, hstmt, -⟩ := Parse.exists_of_bind_eq_ok h
    obtain ⟨b, c₂, hb, -⟩ := Parse.exists_of_bind_eq_ok hstmt
    exact ⟨_, b, c₂, hb⟩
  · rw [hkind] at h
    obtain ⟨stmt, c₁, hstmt, -⟩ := Parse.exists_of_bind_eq_ok h
    obtain ⟨b, c₂, hb, -⟩ := Parse.exists_of_bind_eq_ok hstmt
    exact ⟨_, b, c₂, hb⟩

/-- A module that begins with a condition which is a tuple does not read back, however it is
written. -/
theorem Module.ofSource_write_tuple_condition [Unicode.CharacterNames] {m : Module}
    (hmode : m.mode = .exec) {stmt : Stmt} {rest : List Stmt} (hbody : m.body = stmt :: rest)
    {word : Bytes} {span : Span} {e : Expr} {es : List Expr} {context : Context}
    (htests : stmt.Tests (.node span (.tuple (e :: es) context)) word) (he : e.IsOperatorTree)
    (style : Style) : ∃ error, Module.ofSource .exec (m.write style) = .error error := by
  obtain ⟨behind, hlines⟩ := htests.exists_lines style 0
  obtain ⟨s, hwrite⟩ := write_cons hmode hbody hlines
  obtain ⟨hword, hkeyword⟩ := htests.isKeyword
  obtain ⟨ws, hspells, hfits⟩ := (he.written style.quote).inside .test (by decide)
  have hheader := hspells.opened (Opening.word hword)
  -- behind the first expression of the condition there is a comma
  obtain ⟨s', hsource⟩ : ∃ s', m.write style =
      word ++ text " " ++ e.write style.quote .test ++ (text "," ++ s') := by
    obtain ⟨items, hitems⟩ := exists_tupleText_cons (e.write style.quote .test)
      (es.map (·.write style.quote .test))
    rw [hwrite, Expr.write_of_le (show Precedence.named ≤ _ from Nat.zero_le _), Expr.Shape.write,
      List.isEmpty_cons, if_neg Bool.false_ne_true, Expr.writeAll_eq_map, List.map_cons, hitems]
    exact ⟨items ++ text ":" ++ text "\n" ++ s, by simp only [List.append_assoc]⟩
  have hdivides := (hheader.divides (text "," ++ s') fun c hc => by
    obtain rfl := Option.some.inj hc
    rfl).trans (Bracket.comma.divides s')
  rw [List.append_assoc [_] ws, List.singleton_append] at hdivides
  rw [hsource]
  cases hresult : Module.ofSource .exec
      (word ++ text " " ++ e.write style.quote .test ++ (text "," ++ s')) with
  | error error => exact ⟨error, rfl⟩
  | ok m' =>
    have hplain : TokenKind.ofWord word ≠ .endOfInput ∧ TokenKind.ofWord word ≠ .newline := by
      rcases hkeyword with hkind | hkind <;> rw [hkind] <;> decide
    obtain ⟨field, limit, inner, c, stmts, c₁, tail, more, hc, hlimit, hstmts, -⟩ :=
      Module.exists_of_ofSource hdivides (hheader.begins_plain _) hplain.1 hplain.2 hresult
    have hpeek : c.peek.kind = TokenKind.ofWord word := Cursor.kind_peek hc
    obtain ⟨header, branch, c₂, hbranch⟩ := exists_branch_of_statements (hpeek ▸ hkeyword) hstmts
    rw [List.append_assoc, List.singleton_append] at hc
    rw [List.length_append, List.length_singleton] at hlimit
    exact absurd hbranch (branch_ne_ok hc hfits.reads (by omega) rfl)

open scoped Unicode.NameTable in
example : (Module.ofSource .exec (text "while (a, b):\n    pass\n")).map (Module.write .default) =
    .ok (text "while a, b:\n    pass\n") := by
  decide +kernel

/-! ## Context managers -/

/-- The context managers in parentheses. -/
theorem ItemReading.withItem (field : FieldReading) (n : Nat) :
    ItemReading WithItem.context n (Parse.withItem (readUpTo field n)) (at? .closeParen)
      .closeParen where
  reads := by
    intro ws e h hn c f more hc hf
    have hends : f.kind.Ends .expression ∧ f.kind ≠ .kwAs := by
      obtain hf | hf := hf <;> rw [hf] <;> decide
    obtain ⟨item, c', hrun, hc', hitem⟩ := h.withItem field hn hc hends.1 hends.2
    exact ⟨item, c', hrun, hc', congrArg WithItem.context hitem⟩
  ends hc hw := by
    rw [at?_run hc, hw]
    rfl
  goesOn hc hw := by
    rw [at?_run hc, show (_ == TokenKind.closeParen) = false by simpa using hw.ne (by decide)]

/-- A tuple in parentheses in front of a colon is read as a list of context managers. -/
theorem TupleItems.withItems {ws : List Word} {es : List Expr} (h : TupleItems ws es)
    (field : FieldReading) {n : Nat} (hn : ws.length < n) {c : Cursor} {o close colon : Word}
    {more : List Word} (hc : c.words = o :: (ws ++ close :: colon :: more))
    (ho : o.kind = .openParen) (hclose : close.kind = .closeParen) (hcolon : colon.kind = .colon) :
    ∃ items c', Parse.withItems (readUpTo field n) c = .ok items c' ∧
      Expr.bareAll (items.map WithItem.context) = es := by
  let c₀ := { c with attempts := c.attempts + 1 }
  have hc₀ : c₀.words = o :: (ws ++ close :: colon :: more) := hc
  have hadvance := Cursor.words_advance hc₀ (by simp)
  obtain ⟨w, tail, hws, hw⟩ := h.opens.begins
  obtain ⟨v, c₁, comma, tail', as, c₂, hrun, -, -, hrest, hc₂, hvs⟩ :=
    h.run (.withItem field n) (by decide) hn hadvance hclose
  have hitems : itemsUntil .closeParen (withItem (readUpTo field n)) c₀.advance =
      .ok (v :: as) c₂ := by
    have hopen : at? .closeParen c₀.advance = .ok false c₀.advance :=
      (ItemReading.withItem field n).goesOn (by rw [hadvance, hws]; rfl) hw
    rw [itemsUntil, bind_ok hopen, if_neg Bool.false_ne_true, bind_ok hrun, bind_ok hrest]
    rfl
  have hcolon' := Cursor.words_advance hc₂ (by simp)
  have hparenthesized : parenthesizedItems (readUpTo field n) c₀ =
      .ok (some (v :: as)) c₂.advance := by
    rw [parenthesizedItems, bind_ok (next_run c₀), bind_ok hitems,
      if_neg (by simp), bind_ok (accept_true hc₂ hclose)]
    simp only [if_true]
    rw [bind_ok (at?_run hcolon' _), if_pos (by simpa using hcolon)]
    rfl
  refine ⟨v :: as, { c₂.advance with attempts := c.attempts }, ?_, hvs⟩
  have hattempt : attempt (parenthesizedItems (readUpTo field n)) c =
      .ok (some (v :: as)) { c₂.advance with attempts := c.attempts } := by
    rw [attempt, hparenthesized]
  rw [Parse.withItems, bind_ok (at?_run hc _), if_pos (by simpa using ho), bind_ok hattempt]
  rfl

/-- A with statement is read by reading its context managers first. -/
theorem Parse.exists_withItems_of_statements {read : Reading} {field : FieldReading}
    {inner : Parse (List Stmt)} {c c' : Cursor} {stmts : List Stmt} (hkind : c.peek.kind = .kwWith)
    (h : statements read field inner c = .ok stmts c') :
    ∃ span items body c₁, withItems read c.advance = .ok items c₁ ∧
      stmts = [.node span (.withBlock false items body)] := by
  rw [statements, bind_ok (peek_run c), hkind] at h
  obtain ⟨stmt, c₁, hstmt, h⟩ := Parse.exists_of_bind_eq_ok h
  rw [bind_ok (next_run c)] at hstmt
  obtain ⟨items, c₂, hitems, hstmt⟩ := Parse.exists_of_bind_eq_ok hstmt
  obtain ⟨body, c₃, -, hstmt⟩ := Parse.exists_of_bind_eq_ok hstmt
  cases hstmt
  cases h
  exact ⟨_, items, body, c₂, hitems, rfl⟩

/-- A context manager without a target is written on the line of its statement if it fits there. -/
theorem Stmt.exists_lines_of_fits {style : Style} {span itemSpan : Span} {context : Expr}
    {body : List Stmt}
    (hfits : style.fits 0 (text "with " ++ context.write style.quote .test ++ text ":")) :
    ∃ behind, Stmt.lines style 0 (.node span (.withBlock false [⟨itemSpan, context, none⟩] body)) =
      .code 0 (text "with " ++ context.write style.quote .test ++ text ":") :: behind := by
  have hheader : withHeader style 0 false [⟨itemSpan, context, none⟩] =
      [.code 0 (text "with " ++ context.write style.quote .test ++ text ":")] := by
    have hitem : WithItem.write style.quote ⟨itemSpan, context, none⟩ =
        context.write style.quote .test := List.append_nil _
    rw [withHeader, List.map_singleton, hitem]
    exact if_pos hfits
  refine ⟨Stmt.block style 1 body, ?_⟩
  rw [Stmt.lines, hheader]
  rfl

/-- The words of a with statement whose items are in parentheses. -/
theorem Spells.withHeader {dotted : Bool} {items : Bytes} {ws : List Word}
    (h : Spells dotted items ws) (rest : Bytes) :
    Divides (text "with " ++ parenthesize items ++ text ":" ++ text "\n" ++ rest)
      (text "\n" ++ rest)
      (⟨.kwWith, text "with"⟩ :: ⟨.openParen, text "("⟩ ::
        (ws ++ [⟨.closeParen, text ")"⟩, ⟨.colon, text ":"⟩])) := by
  have hopening : Opening (text "with " ++ text "(")
      [⟨.kwWith, text "with"⟩, ⟨.openParen, text "("⟩] :=
    (Opening.word (s := text "with") ⟨_, _, rfl, rfl, rfl⟩).trans
      (.operator Bracket.openParen.listed ⟨_, _, rfl, rfl⟩)
  have hitems := (h.opened hopening).divides (text ")" ++ (text ":" ++ (text "\n" ++ rest)))
    fun c hc => by
      obtain rfl := Option.some.inj hc
      rfl
  have hend := (Bracket.closeParen.divides _).trans (.colon_line rest)
  have hsource : text "with " ++ parenthesize items ++ text ":" ++ text "\n" ++ rest =
      text "with " ++ text "(" ++ items ++ (text ")" ++ (text ":" ++ (text "\n" ++ rest))) := by
    simp only [parenthesize, List.append_assoc]
  rw [hsource]
  exact hitems.trans hend

/-- A context manager that is a tuple and fits on the line reads back as one context manager for
each item of the tuple. -/
theorem Module.ofSource_write_tuple_manager [Unicode.CharacterNames] {m : Module}
    (hmode : m.mode = .exec)
    {span itemSpan tupleSpan : Span} {e : Expr} {es : List Expr} {body rest : List Stmt}
    (hbody : m.body = .node span (.withBlock false
      [⟨itemSpan, .node tupleSpan (.tuple (e :: es) .load), none⟩] body) :: rest)
    (he : ∀ e' ∈ e :: es, e'.IsOperatorTree) {style : Style}
    (hfits : style.fits 0 (text "with " ++
      Expr.write style.quote .test (.node tupleSpan (.tuple (e :: es) .load)) ++ text ":"))
    {m' : Module} (hread : Module.ofSource .exec (m.write style) = .ok m') :
    ∃ span items body' rest', m'.body = .node span (.withBlock false items body') :: rest' ∧
      Expr.bareAll (items.map WithItem.context) = Expr.bareAll (e :: es) := by
  obtain ⟨behind, hlines⟩ := Stmt.exists_lines_of_fits hfits
  obtain ⟨s, hwrite⟩ := write_cons hmode hbody hlines
  obtain ⟨ws, dotted, hspells, htuple⟩ :=
    Written.tupleItems fun e' he' => (he e' he').written style.quote
  have hparentheses : Expr.write style.quote .test (.node tupleSpan (.tuple (e :: es) .load)) =
      parenthesize (tupleText (Expr.writeAll style.quote .test (e :: es))) :=
    Expr.write_of_lt (show Precedence.tuple.rank < Precedence.test.rank by decide)
  rw [hwrite, hparentheses] at hread
  obtain ⟨field, limit, inner, c, stmts, c₁, tail, more, hc, hlimit, hstmts, hmore⟩ :=
    Module.exists_of_ofSource (hspells.withHeader s) ⟨_, _, rfl, rfl, rfl⟩ (by decide) (by decide)
      hread
  obtain ⟨span', items, body', c₂, hitems, rfl⟩ :=
    exists_withItems_of_statements (Cursor.kind_peek hc) hstmts
  have hadvance := Cursor.words_advance hc (by simp)
  rw [List.cons_append, List.append_assoc] at hadvance
  rw [List.length_cons, List.length_append] at hlimit
  have hn : ws.length < limit := by omega
  obtain ⟨items', c₃, hitems', hes⟩ := htuple.withItems field hn hadvance rfl rfl rfl
  obtain ⟨rfl, -⟩ := EStateM.Result.ok.inj (hitems'.symm.trans hitems)
  exact ⟨span', items', body', more, hmore, hes⟩

-- where nothing fits on a line, the tuple keeps its parentheses
open scoped Unicode.NameTable in
example : (Module.ofSource .exec (text "with ((a, b)):\n    pass\n")).map
      (fun m => (m.write .default, m.write { Style.default with maxLineLength := 0 })) =
    .ok (text "with (a, b):\n    pass\n", text "with (\n    (a, b),\n):\n    pass\n") := by
  decide +kernel

end SyntaxTree
