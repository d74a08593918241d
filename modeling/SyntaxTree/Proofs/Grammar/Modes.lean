import SyntaxTree.Proofs.Grammar.InLine
import SyntaxTree.Proofs.Grammar.Module
import SyntaxTree.Proofs.Grammar.Phrase
import SyntaxTree.Proofs.Rename.Statement
import SyntaxTree.Proofs.Token.Bracketing
import SyntaxTree.Unicode.NameTable

/-
# An expression as a module

An expression is read in two ways: on its own, or as the only statement of a module.  On the way to
the same reading of expressions a module tests for compound and simple statements, for match
statements and type aliases, for annotations and assignments; none of these tests succeeds at the
first token of an expression or behind its last one.
-/

namespace SyntaxTree

open Parse

/-! ## Line ends -/

/-- The second cursor stands behind the line ends at the first. -/
inductive Cursor.PassesLines : Cursor → Cursor → Prop where
  | here {c : Cursor} (h : c.peek.kind ≠ .newline) : PassesLines c c
  | newline {c c' : Cursor} (h : c.peek.kind = .newline) (hrest : PassesLines c.advance c') :
    PassesLines c c'

namespace Cursor.PassesLines

variable {c c' : Cursor}

theorem final (h : c.PassesLines c') : c'.final = c.final := by
  induction h with
  | here _ => rfl
  | @newline c c' _ _ ih => exact ih.trans c.final_advance

theorem suffix (h : c.PassesLines c') : c'.rest <:+ c.rest := by
  induction h with
  | here _ => exact List.suffix_rfl
  | @newline c c' _ _ ih => exact ih.trans c.suffix_advance_rest

/-- What is ahead of the first cursor and ends no line is ahead of the second. -/
theorem mem_rest (h : c.PassesLines c') {t : Token} (ht : t ∈ c.rest) (hkind : t.kind ≠ .newline) :
    t ∈ c'.rest := by
  induction h with
  | here _ => exact ht
  | @newline c c' hnewline _ ih =>
    refine ih ?_
    obtain ⟨_, _, rest, _, _⟩ := c
    cases rest with
    | nil => exact ht
    | cons u rest =>
      refine (List.mem_cons.mp ht).resolve_left ?_
      rintro rfl
      exact hkind hnewline

/-- In front of the last line ends stands one of them or the end of the input. -/
theorem kind_peek (h : c.PassesLines c') (hend : c'.peek.kind = .endOfInput) :
    c.peek.kind = .newline ∨ c.peek.kind = .endOfInput := by
  cases h with
  | here _ => exact .inr hend
  | newline hnewline _ => exact .inl hnewline

end Cursor.PassesLines

namespace Parse

variable {α : Type} {c c' : Cursor}

theorem passesLines_of_collectUpTo {limit : Nat} {units : List Unit}
    (h : collectUpTo acceptNewline limit c = .ok units c') : c.PassesLines c' := by
  induction limit generalizing c units with
  | zero => cases h
  | succ limit ih =>
    obtain ⟨found, c₁, hfound, hrest⟩ := exists_of_bind_eq_ok h
    by_cases hkind : c.peek.kind = .newline
    · rw [acceptNewline, bind_ok (accept_of_eq hkind)] at hfound
      cases hfound
      obtain ⟨more, c₂, hmore, hlast⟩ := exists_of_bind_eq_ok hrest
      cases hlast
      exact .newline hkind (ih hmore)
    · rw [acceptNewline, bind_ok (accept_of_ne hkind)] at hfound
      cases hfound
      cases hrest
      exact .here hkind

theorem passesLines_of_skipNewlines (h : skipNewlines c = .ok () c') : c.PassesLines c' := by
  obtain ⟨units, c₁, hunits, hlast⟩ := exists_of_bind_eq_ok h
  cases hlast
  exact passesLines_of_collectUpTo hunits

/-- A whole expression stands between line ends, and behind the last of them the input ends. -/
theorem exists_of_wholeExpression {field : FieldReading} {e : Expr}
    (h : wholeExpression field c = .ok e c') :
    ∃ c₁ c₂, c.PassesLines c₁ ∧ c₁.peek.kind ≠ .endOfInput ∧
      starExpressions (readUpTo field (c.rest.length + 1)) c₁ = .ok e c₂ ∧
        c₂.PassesLines c' ∧ c'.peek.kind = .endOfInput := by
  rw [wholeExpression, bind_ok (show limit c = .ok (c.rest.length + 1) c from rfl)] at h
  obtain ⟨_, c₁, hfront, h⟩ := exists_of_bind_eq_ok h
  rw [bind_ok (at?_peek _ c₁)] at h
  split at h
  · cases h
  next hend =>
  obtain ⟨value, c₂, hvalue, h⟩ := exists_of_bind_eq_ok h
  obtain ⟨_, c₃, hbehind, h⟩ := exists_of_bind_eq_ok h
  rw [bind_ok (at?_peek _ c₃)] at h
  split at h
  · next hlast =>
    cases h
    exact ⟨c₁, c₂, passesLines_of_skipNewlines hfront, by simpa using hend, hvalue,
      passesLines_of_skipNewlines hbehind, by simpa using hlast⟩
  · cases h

/-! ## Statements up to the end -/

/-- A step of the reading of statements up to the end of the input. -/
def stepToEnd (item : Parse (List α)) : Parse (Option (List α)) := do
  if ← at? .endOfInput then return none
  else if ← accept .newline then return some []
  else return some (← item)

/-- Behind a cursor stand items, whatever bound above the number of tokens ahead is set on them. -/
def ReadsToEnd (item : Parse (List α)) (c : Cursor) (as : List α) (c' : Cursor) : Prop :=
  ∀ n, c.rest.length < n →
    ∃ items, collectUpTo (stepToEnd item) n c = .ok items c' ∧ items.flatten = as

namespace ReadsToEnd

variable {item : Parse (List α)} {as : List α}

theorem untilEnd (h : ReadsToEnd item c as c') :
    Parse.untilEnd (at? .endOfInput) item c = .ok as c' := by
  obtain ⟨items, hitems, rfl⟩ := h _ (Nat.lt_succ_self _)
  exact bind_ok (show collect (stepToEnd item) c = .ok items c' from hitems)

theorem nil (h : c.peek.kind = .endOfInput) : ReadsToEnd item c [] c := by
  intro n hn
  obtain ⟨n, rfl⟩ := Nat.exists_eq_succ_of_ne_zero (Nat.ne_zero_of_lt hn)
  refine ⟨[], collectUpTo_none ?_ n, rfl⟩
  rw [stepToEnd, bind_ok (at?_peek _ c), if_pos (by simpa using h)]
  rfl

/-- What one step gives comes before what is read behind it. -/
theorem cons {first : List α} {c₁ : Cursor} (hstep : stepToEnd item c = .ok (some first) c₁)
    (hlt : c₁.rest.length < c.rest.length) (hrest : ReadsToEnd item c₁ as c') :
    ReadsToEnd item c (first ++ as) c' := by
  intro n hn
  obtain ⟨n, rfl⟩ := Nat.exists_eq_succ_of_ne_zero (Nat.ne_zero_of_lt hn)
  obtain ⟨items, hitems, rfl⟩ := hrest n (Nat.lt_of_lt_of_le hlt (Nat.le_of_lt_succ hn))
  exact ⟨first :: items, collectUpTo_some hstep hitems, List.flatten_cons⟩

theorem newline (hends : c.final.kind = .endOfInput) (hnewline : c.peek.kind = .newline)
    (h : ReadsToEnd item c.advance as c') : ReadsToEnd item c as c' := by
  have hend : c.peek.kind ≠ .endOfInput := by
    rw [hnewline]
    decide
  have hstep : stepToEnd item c = .ok (some []) c.advance := by
    rw [stepToEnd, bind_ok (at?_peek _ c), if_neg (by simpa using hend),
      bind_ok (accept_of_eq hnewline)]
    rfl
  exact cons hstep (Cursor.length_advance_lt hends hend) h

/-- Line ends in front of items do not count. -/
theorem passesLines {c₁ : Cursor} (hends : c.final.kind = .endOfInput) (hlines : c.PassesLines c₁)
    (h : ReadsToEnd item c₁ as c') : ReadsToEnd item c as c' := by
  induction hlines with
  | here _ => exact h
  | @newline c c₁ hnewline _ ih => exact .newline hends hnewline (ih (c.final_advance ▸ hends) h)

end ReadsToEnd

/-! ## Where an expression begins -/

variable {field : FieldReading} {limit : Nat} {e : Expr}

/-- The first token of an expression list is one that can begin an item. -/
theorem startsItem_of_starExpressions (h : starExpressions (readUpTo field limit) c = .ok e c') :
    c.peek.kind.startsItem = true := by
  by_contra hkind
  have hopens : c.peek.kind.opens? = none ∧ TokenKind.star ≠ c.peek.kind := by
    generalize c.peek.kind = kind at hkind
    cases kind <;> first | exact ⟨rfl, TokenKind.noConfusion⟩ | exact absurd rfl hkind
  have hfails : FailsAt c.peek.kind (starExpressions (readUpTo field limit)) :=
    .bind (.ifAt hopens.2 (.readUpTo hopens.1 field limit .expression))
  obtain ⟨error, c'', herror⟩ := hfails c rfl
  rw [herror] at h
  cases h

/-- No expression list ends behind the first of two names side by side. -/
theorem peekAt_one_ne_identifier (hlimit : 1 < limit)
    (h : starExpressions (readUpTo field limit) c = .ok e c') (hrest : c.rest ≠ [])
    (hname : c.peek.kind = .identifier) (hend : c'.peek.kind ≠ .identifier) :
    (c.peekAt 1).kind ≠ .identifier := by
  intro hnext
  obtain ⟨v, c₁, hv, hkind⟩ := stopsBehindName_readUpTo field hlimit c hrest hname hnext
  have hitem : starExpression (readUpTo field limit) c = .ok v c₁ := by
    rw [starExpression, starredOr, bind_ok (at?_peek _ c), if_neg (by rw [hname]; decide)]
    exact hv
  rw [starExpressions, tupleOf, bind_ok hitem, bind_ok (at?_peek _ c₁),
    if_neg (by rw [hkind]; decide)] at h
  cases h
  exact hend hkind

/-- The subject of a match statement stands in front of an indented block. -/
theorem exists_indent_of_matchSubject {subject : Expr} (hfield : FieldSteady field)
    (hends : c.final.kind = .endOfInput)
    (h : matchSubject (readUpTo field limit) c = .ok (some subject) c') :
    ∃ t ∈ c.rest, t.kind = .indent := by
  obtain ⟨hsubject, -, -, hindent, -⟩ := matchSubject_eq_ok h
  have hline := withinLine_of_starNamed hfield hsubject
  refine ⟨c'.peekAt 2, (hline.suffix.trans c.suffix_advance_rest).subset ?_, hindent⟩
  rw [Cursor.peekAt, List.getD_eq_getElem?_getD] at hindent ⊢
  cases hget : c'.rest[2]? with
  | none =>
    rw [hget, Option.getD_none, hline.final, c.final_advance, hends] at hindent
    cases hindent
  | some t => exact List.mem_of_getElem? hget

/-- Without an indented block ahead there is no match statement. -/
theorem attempt_matchSubject_none (hfield : FieldSteady field) (hends : c.final.kind = .endOfInput)
    (h : ∀ t ∈ c.rest, t.kind ≠ .indent) :
    attempt (matchSubject (readUpTo field limit)) c = .ok none c := by
  obtain hnone | ⟨subject, c₁, c', -, hsubject⟩ :=
    attempt_run (matchSubject (readUpTo field limit)) c
  · exact hnone
  · obtain ⟨t, ht, hindent⟩ := exists_indent_of_matchSubject
      (c := { c with attempts := c.attempts + 1 }) hfield hends hsubject
    exact absurd hindent (h t ht)

/-! ## From the expression to the module -/

section Statement

variable {read : Reading} {last : Cursor} {s : Stmt}

/-- An expression list in front of the last line ends is a statement. -/
theorem expressionStmt_of_starExpressions (h : starExpressions read c = .ok e c')
    (hyield : c.peek.kind ≠ .kwYield) (hstarred : e.isStarred = false)
    (hlines : c'.PassesLines last) (hend : last.peek.kind = .endOfInput) :
    expressionStmt read c = .ok (.node (c'.spanFrom c.peek.start) (.expression e)) c' := by
  have hkind := hlines.kind_peek hend
  have hvalue : yieldOrExpressions read c = .ok e c' := by
    rw [yieldOrExpressions, bind_ok (at?_peek _ c), if_neg (by simpa using hyield), h]
  rw [expressionStmt, bind_ok (peek_run c), bind_ok hvalue]
  rw [bind_ok (accept_of_ne (by rcases hkind with h | h <;> rw [h] <;> decide)),
    if_neg (by decide), bind_ok (show kind c' = .ok c'.peek.kind c' from rfl)]
  have haugmented : augmentedOf? c'.peek.kind = none := by
    rcases hkind with h | h <;> rw [h] <;> rfl
  rw [haugmented]
  show (at? .equal >>= fun _ => _) c' = _
  rw [bind_ok (at?_peek _ c'),
    if_neg (by rcases hkind with h | h <;> rw [h] <;> decide), plainValue, hstarred]
  rfl

/-- The last line of an input holds one statement, and takes at most the line end behind it. -/
theorem exists_line_eq_ok (h : simpleStmt read c = .ok s c') (hlines : c'.PassesLines last)
    (hend : last.peek.kind = .endOfInput) (hends : c'.final.kind = .endOfInput) :
    ∃ c₁, line read c = .ok [s] c₁ ∧ c₁.PassesLines last ∧
      (c₁ = last ∨ c₁.rest.length < c'.rest.length) := by
  rw [line_eq_lineOf, lineOf, bind_ok h]
  cases hlines with
  | here hne =>
    refine ⟨c', ?_, .here hne, .inl rfl⟩
    rw [bind_ok (show collect (furtherStmt (simpleStmt read)) c' = .ok [] c' from
        collectUpTo_furtherStmt_nil _ (by rw [hend]; decide) _),
      endLine, bind_ok (accept_of_ne hne), if_neg (by decide), bind_ok (at?_peek _ c'),
      if_pos (by simpa using hend)]
    rfl
  | newline hnewline hrest =>
    have hkind : c'.peek.kind ≠ .endOfInput := by
      rw [hnewline]
      decide
    refine ⟨c'.advance, ?_, hrest, .inr (Cursor.length_advance_lt hends hkind)⟩
    rw [bind_ok (show collect (furtherStmt (simpleStmt read)) c' = .ok [] c' from
        collectUpTo_furtherStmt_nil _ (by rw [hnewline]; decide) _),
      endLine, bind_ok (accept_of_eq hnewline)]
    rfl

/-- A token that begins an item begins none of the other simple statements. -/
theorem simpleStmt_of_startsItem (hkind : c.peek.kind.startsItem)
    (halias : c.peek.kind = .identifier → (c.peekAt 1).kind ≠ .identifier) :
    simpleStmt read c = expressionStmt read c := by
  obtain ⟨isAlias, hrun, hfacts⟩ := startsTypeAlias_run c
  have hno : isAlias = false := by
    rw [Bool.eq_false_iff]
    exact fun h => halias (hfacts h).1 (hfacts h).2.2
  rw [hno] at hrun
  rw [simpleStmt, bind_ok (show kind c = .ok c.peek.kind c from rfl)]
  generalize c.peek.kind = kind at hkind
  cases kind <;> first
    | exact bind_ok hrun
    | cases hkind

/-- Where no match statement begins, such a token begins no compound statement. -/
theorem statements_of_startsItem {inner : Parse (List Stmt)} (hkind : c.peek.kind.startsItem)
    (hmatch : attempt (matchSubject read) c = .ok none c) :
    statements read field inner c = line read c := by
  have hline (behind : Option Stmt → Parse (List Stmt)) (hbehind : behind none = line read) :
      (isWordAt 0 (text "match") >>= fun b =>
        if b then matchStmt read field inner >>= behind else line read) c = line read c := by
    rw [bind_ok (isWordAt_zero _ c)]
    split
    · rw [bind_ok (matchStmt_none hmatch), hbehind]
    · rfl
  rw [statements, bind_ok (peek_run c)]
  generalize c.peek.kind = kind at hkind
  cases kind <;> first
    | exact hline _ rfl
    | cases hkind

end Statement

/-- In front of nothing but line ends, an expression list that is not starred is a statement. -/
theorem statementsUpTo_of_starExpressions {last : Cursor} (hfield : FieldSteady field)
    (hlimit : 1 < limit) (h : starExpressions (readUpTo field limit) c = .ok e c')
    (hstarred : e.isStarred = false) (hlines : c'.PassesLines last) (hlast : last.rest = [])
    (hends : last.final.kind = .endOfInput) (hrest : c.rest ≠ []) (n : Nat) :
    ∃ span c₁, statementsUpTo (readUpTo field limit) field (n + 1) c =
        .ok [.node span (.expression e)] c₁ ∧
      c₁.PassesLines last ∧ c₁.rest.length < c.rest.length := by
  have hend : last.peek.kind = .endOfInput := by
    rw [Cursor.peek, hlast]
    exact hends
  have hline := withinLine_of_starExpressions hfield h
  have hends' : c'.final.kind = .endOfInput := hlines.final ▸ hends
  have hindent : ∀ t ∈ c.rest, t.kind ≠ .indent := by
    -- Within the expression there is no layout, and behind it there are only line ends.
    intro t ht hkind
    have ht' := hline.mem_rest ht (by rw [hkind]; rfl)
    have htlast := hlines.mem_rest ht' (by rw [hkind]; decide)
    rw [hlast] at htlast
    cases htlast
  have hbegins := startsItem_of_starExpressions h
  have hyield : c.peek.kind ≠ .kwYield := by
    intro hyield
    rw [hyield] at hbegins
    cases hbegins
  have halias (hname : c.peek.kind = .identifier) : (c.peekAt 1).kind ≠ .identifier :=
    peekAt_one_ne_identifier hlimit h hrest hname
      (by rcases hlines.kind_peek hend with h | h <;> rw [h] <;> decide)
  have hmatch : attempt (matchSubject (readUpTo field limit)) c = .ok none c :=
    attempt_matchSubject_none hfield (hline.final ▸ hends') hindent
  have hstmt := expressionStmt_of_starExpressions h hyield hstarred hlines hend
  obtain ⟨c₁, hrun, hpasses, hbehind⟩ := exists_line_eq_ok
    ((simpleStmt_of_startsItem hbegins halias).trans hstmt) hlines hend hends'
  refine ⟨_, c₁, (statements_of_startsItem hbegins hmatch).trans hrun, hpasses, ?_⟩
  obtain rfl | hlt := hbehind
  · rw [hlast]
    exact List.length_pos_iff.mpr hrest
  · exact Nat.lt_of_lt_of_le hlt hline.suffix.length_le

/-- Where a whole expression is read that is not starred, a module with this expression as its only
statement is read too. -/
theorem moduleUpTo_of_wholeExpression (hfield : FieldSteady field)
    (hends : c.final.kind = .endOfInput) (honce : ∀ t ∈ c.rest, t.kind ≠ .endOfInput)
    (h : wholeExpression field c = .ok e c') (hstarred : e.isStarred = false) :
    ∃ span, moduleUpTo field (c.rest.length + 1) c =
      .ok { Module.empty .exec with body := [.node span (.expression e)] } c' := by
  obtain ⟨c₁, c₂, hfront, hfirst, hvalue, hbehind, hend⟩ := exists_of_wholeExpression h
  have hline := withinLine_of_starExpressions hfield hvalue
  have hends₁ : c₁.final.kind = .endOfInput := hfront.final ▸ hends
  have hends' : c'.final.kind = .endOfInput := by
    rw [hbehind.final, hline.final]
    exact hends₁
  have hrest₁ : c₁.rest ≠ [] := by
    intro hnil
    rw [Cursor.peek, hnil] at hfirst
    exact hfirst hends₁
  have hlast : c'.rest = [] := by
    refine List.eq_nil_iff_forall_not_mem.mpr fun t ht => ?_
    obtain ⟨t, rest, hrest⟩ := List.exists_cons_of_ne_nil (List.ne_nil_of_mem ht)
    have hmem : t ∈ c'.rest := hrest ▸ List.mem_cons_self
    rw [Cursor.peek, hrest] at hend
    exact honce t (hfront.suffix.subset (hline.suffix.subset (hbehind.suffix.subset hmem))) hend
  have hlimit : 1 < c.rest.length + 1 :=
    Nat.succ_lt_succ (Nat.lt_of_lt_of_le (List.length_pos_iff.mpr hrest₁) hfront.suffix.length_le)
  obtain ⟨span, c₃, hrun, hlines, htaken⟩ := statementsUpTo_of_starExpressions hfield hlimit hvalue
    hstarred hbehind hlast hends' hrest₁ c.rest.length
  have hstep : stepToEnd (statementsUpTo (readUpTo field (c.rest.length + 1)) field
      (c.rest.length + 1)) c₁ = .ok (some [.node span (.expression e)]) c₃ := by
    have hnewline : c₁.peek.kind ≠ .newline := by
      intro hnewline
      have hbegins := startsItem_of_starExpressions hvalue
      rw [hnewline] at hbegins
      cases hbegins
    rw [stepToEnd, bind_ok (at?_peek _ c₁), if_neg (by simpa using hfirst),
      bind_ok (accept_of_ne hnewline), if_neg (by decide), bind_ok hrun]
    rfl
  have hbody := ReadsToEnd.passesLines hends hfront
    (.cons hstep htaken (.passesLines (hlines.final ▸ hends') hlines (.nil hend)))
  exact ⟨span, bind_ok hbody.untilEnd⟩

end Parse

/-! ## The tokens of a source -/

/-- Fields and expressions are read alike on both ways. -/
theorem Parse.exists_field_eq [Unicode.CharacterNames] (c : Cursor) :
    ∃ field, FieldSteady field ∧ onlyExpression c = wholeExpression field c ∧
      execModule c = moduleUpTo field (c.rest.length + 1) c :=
  ⟨_, fieldSteady_fieldUpTo _, rfl, rfl⟩

/-- In front of tokens that end with the end of the input, it is not among those ahead. -/
theorem Cursor.kind_ne_of_mem_rest (lines : List Bytes) {body : List Token} {final : Token}
    (hfinal : final.kind = .endOfInput) (hbody : ∀ t ∈ body, t.kind ≠ .endOfInput) :
    ∀ t ∈ (ofTokens lines (body ++ [final])).rest, t.kind ≠ .endOfInput := by
  have hfilter : (body ++ [final]).filter (·.kind ≠ .comment) =
      body.filter (·.kind ≠ .comment) ++ [final] := by
    simp [hfinal]
  rw [ofTokens, hfilter]
  simp only [List.getLast?_concat, hfinal, if_true, List.dropLast_concat]
  exact fun t ht => hbody t (List.mem_of_mem_filter ht)

/-- A source that forms an expression on its own forms a module with this expression as its only
statement, unless the expression is starred. -/
theorem Module.ofSource_exec_of_eval [Unicode.CharacterNames] {source : Bytes} {m : Module}
    {e : Expr} (h : Module.ofSource .eval source = .ok m) (he : m.expression = some e)
    (hstarred : e.isStarred = false) :
    ∃ m' span, Module.ofSource .exec source = .ok m' ∧
      m'.body = [.node span (.expression e)] := by
  rw [Module.ofSource, Parse.ofSource] at h
  cases htokens : tokenize false source with
  | error error =>
    rw [htokens] at h
    cases h
  | ok tokens =>
    rw [htokens] at h
    obtain ⟨c', heval⟩ := ofTokens_eq_ok.mp h
    obtain ⟨value, c₁, honly, hm⟩ := Parse.exists_of_bind_eq_ok
      (show evalModule _ = .ok m c' from heval)
    cases hm
    cases he
    obtain ⟨body, final, rfl, hfinal, hbody⟩ := exists_final_of_tokenize htokens
    have hends := Cursor.final_ofTokens (Bytes.lines source) (body ++ [final])
    have honce := Cursor.kind_ne_of_mem_rest (Bytes.lines source) hfinal hbody
    obtain ⟨field, hfield, heval, hexec⟩ := exists_field_eq (Cursor.ofTokens _ (body ++ [final]))
    obtain ⟨span, hmodule⟩ := moduleUpTo_of_wholeExpression hfield hends honce
      (heval.symm.trans honly) hstarred
    refine ⟨{ Module.empty .exec with body := [.node span (.expression e)] }, span, ?_, rfl⟩
    rw [Module.ofSource, Parse.ofSource, htokens]
    exact ofTokens_eq_ok.mpr ⟨c', hexec.trans hmodule⟩

open scoped Unicode.NameTable in
/-- The soft words within an expression between empty lines. -/
theorem Module.ofSource_exec_of_eval_softWords :
    ∃ m e, Module.ofSource .eval
        (text "\n\nmatch (case) [type:_], *-type, _ if match else case\n\n") =
        .ok m ∧ m.expression = some e ∧ e.isStarred = false ∧
      ∃ m' span, Module.ofSource .exec
          (text "\n\nmatch (case) [type:_], *-type, _ if match else case\n\n") = .ok m' ∧
        m'.body = [.node span (.expression e)] := by
  obtain ⟨m, heval, hchecks⟩ := exists_of_map_eq_ok
    (f := fun m : Module => m.expression.map Expr.isStarred)
    (show (Module.ofSource .eval
      (text "\n\nmatch (case) [type:_], *-type, _ if match else case\n\n")).map _ =
      .ok (some false) by
      decide +kernel)
  obtain ⟨e, he, hstarred⟩ := Option.map_eq_some_iff.mp hchecks
  exact ⟨m, e, heval, he, hstarred, Module.ofSource_exec_of_eval heval he hstarred⟩

end SyntaxTree
