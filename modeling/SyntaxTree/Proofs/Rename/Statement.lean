import SyntaxTree.Proofs.Rename.Block

/-
# Statements over renamed tokens

The word `match` begins a match statement only in front of a subject, a colon, the end of the line
and an indented case.  What stands in front of that colon is then no line by itself, so that nothing
can be read there when the word is renamed.
-/

namespace SyntaxTree.Parse

variable {α β : Type}

/-! ## What a tried reading gives -/

theorem attempt_run (p : Parse (Option α)) (c : Cursor) :
    attempt p c = .ok none c ∨ ∃ a c₁ c', attempt p c = .ok (some a) c' ∧
      p { c with attempts := c.attempts + 1 } = .ok (some a) c₁ := by
  rw [attempt]
  cases h : p { c with attempts := c.attempts + 1 } with
  | error e c₁ => exact .inl rfl
  | ok o c₁ =>
    cases o with
    | none => exact .inl rfl
    | some a => exact .inr ⟨a, c₁, _, rfl, rfl⟩

/-- Where the first of two readings succeeds without a soft result, the cursors stay alike. -/
theorem Mirrors.exists_alike {σ : Bytes → Bytes} {pre : Token → Prop} {R : α → β → Prop}
    {soft : α → Prop} {p : Parse α} {q : Parse β} (h : Mirrors σ True pre R soft p q)
    {c c' d : Cursor} {a : α} (halike : c.Alike σ d) (hpre : pre c.peek) (hrun : p c = .ok a c')
    (ha : ¬ soft a) : c.Keeps c' ∧ ∃ d', c'.Alike σ d' := by
  have houtcome := h halike hpre
  rw [hrun] at houtcome
  generalize q d = s at houtcome
  cases houtcome with
  | ok _ _ halike' hkeeps => exact ⟨hkeeps trivial, _, halike'⟩
  | soft hsoft => exact absurd hsoft ha

/-! ## A line up to a colon -/

/-- No expression statement has a soft keyword. -/
theorem yields_expressionStmt (read : Reading) :
    Yields (fun s => ¬ SoftStmt s) (expressionStmt read) := by
  refine .bind fun start => .bind fun first => .bind fun _ => .ite ?_ (.bind fun kind => ?_)
  · exact .bind fun _ => .bind fun _ => .bind fun _ =>
      .ite (.bind fun _ => .stmtFrom fun _ => nofun) (.bind fun _ => .stmtFrom fun _ => nofun)
  · split
    · exact .bind fun _ => .bind fun _ => .bind fun _ => .bind fun _ => .stmtFrom fun _ => nofun
    · exact .bind fun _ => .ite
        (.bind fun _ => .bind fun _ => .bind fun _ => .stmtFrom fun _ => nofun)
        (.bind fun _ => .stmtFrom fun _ => nofun)

/-- A token with which a statement ends. -/
def endsStmt : TokenKind → Bool
  | .newline | .semicolon | .endOfInput => true
  | _ => false

theorem isBarrier_of_endsStmt {c : Cursor} (h : endsStmt c.peek.kind) (hrest : c.rest ≠ []) :
    IsBarrier c.rest := by
  obtain ⟨_, _, rest, _, _⟩ := c
  cases rest with
  | nil => exact absurd rfl hrest
  | cons t rest =>
    unfold endsStmt at h
    split at h
    · exact .newline ‹_›
    · exact .semicolon ‹_›
    · exact .endOfInput ‹_›
    · cases h

theorem peek_eq_of_rest {c c' : Cursor} (h : c.rest = c'.rest) (hne : c'.rest ≠ []) :
    c.peek = c'.peek := by
  rw [Cursor.peek, Cursor.peek, h]
  cases hrest : c'.rest with
  | nil => exact absurd hrest hne
  | cons t rest => rfl

/-- A colon at the end of a line, as far as it can be seen from a cursor. -/
theorem isBarrier_of_colon {σ : Bytes → Bytes} {c d : Cursor} (halike : c.Alike σ d)
    (hcolon : c.peek.kind = .colon) (hnewline : (c.peekAt 1).kind = .newline) :
    IsBarrier c.rest := by
  have hends := halike.ends
  obtain ⟨_, _, rest, final, _⟩ := c
  rcases rest with _ | ⟨t, _ | ⟨u, rest⟩⟩
  · exact absurd (hends.symm.trans hcolon) (by decide)
  · exact absurd (hends.symm.trans hnewline) (by decide)
  · exact .colon hcolon hnewline

/-- A match statement has a subject in front of a colon, and the word of a case in the block
behind it. -/
theorem matchSubject_eq_ok {read : Reading} {c c' : Cursor} {subject : Expr}
    (hrun : matchSubject read c = .ok (some subject) c') :
    tupleOf startsNoItem (starNamed read) c.advance = .ok subject c' ∧ c'.peek.kind = .colon ∧
      (c'.peekAt 1).kind = .newline ∧ (c'.peekAt 2).kind = .indent ∧
        (c'.peekAt 3).kind = .identifier := by
  obtain ⟨starts, hstarts⟩ := Looks.startsStarred c.advance
  rw [matchSubject, bind_ok (next_run c), bind_ok hstarts] at hrun
  cases starts with
  | false => cases hrun
  | true =>
    rw [if_pos rfl] at hrun
    obtain ⟨e, c₂, hsubject, hrun⟩ := exists_of_bind_eq_ok hrun
    rw [bind_ok (at?_peek _ c₂), bind_ok (show kindAt 1 c₂ = .ok (c₂.peekAt 1).kind c₂ from rfl),
      bind_ok (show kindAt 2 c₂ = .ok (c₂.peekAt 2).kind c₂ from rfl)] at hrun
    obtain ⟨b, c₃, hword, hrun⟩ := exists_of_bind_eq_ok hrun
    cases hword
    split at hrun
    · next htests =>
      simp only [Bool.and_eq_true, beq_iff_eq] at htests
      obtain ⟨⟨⟨hcolon, hnewline⟩, hindent⟩, hcase, -⟩ := htests
      cases hrun
      exact ⟨hsubject, hcolon, hnewline, hindent, hcase⟩
    · cases hrun

/-- The subject of a match statement keeps the barriers, and stands in front of one. -/
theorem exists_of_matchSubject {σ : Bytes → Bytes} {read read' : Reading}
    (h : ReadingMirrors σ True read read') {c c' d : Cursor} (halike : c.Alike σ d)
    {subject : Expr} (hrun : matchSubject read c = .ok (some subject) c') :
    c.advance.Keeps c' ∧ c'.peek.kind = .colon ∧ IsBarrier c'.rest := by
  have hitems : Mirrors σ True anywhere (Becomes (Expr.rename σ)) never
      (tupleOf startsNoItem (starNamed read)) (tupleOf startsNoItem (starNamed read')) :=
    .tupleOf .startsNoItem (.starNamed h)
  obtain ⟨hsubject, hcolon, hnewline, -⟩ := matchSubject_eq_ok hrun
  obtain ⟨hkeeps, d', halike'⟩ := hitems.exists_alike halike.advance trivial hsubject id
  exact ⟨hkeeps, hcolon, isBarrier_of_colon halike' hcolon hnewline⟩

theorem lineOf_error {stmt : Parse α} {c c' : Cursor} {s : α} (hstmt : stmt c = .ok s c')
    (hsemicolon : c'.peek.kind ≠ .semicolon) (hnewline : c'.peek.kind ≠ .newline)
    (hends : c'.peek.kind ≠ .endOfInput) : ∃ e c'', lineOf stmt c = .error e c'' := by
  have hcollect : collect (furtherStmt stmt) c' = .ok [] c' :=
    collectUpTo_furtherStmt_nil stmt hsemicolon _
  rw [lineOf, bind_ok hstmt, bind_ok hcollect, endLine, bind_ok (accept_of_ne hnewline),
    if_neg (by decide), bind_ok (at?_peek _ c'), if_neg (by simpa using hends)]
  exact ⟨_, _, rfl⟩

/-- What begins a match statement is no line. -/
theorem line_error_of_matchSubject {σ : Bytes → Bytes} {read read' : Reading}
    (h : ReadingMirrors σ True read read') {c c' d : Cursor} (halike : c.Alike σ d)
    (hkind : c.peek.kind = .identifier) (hword : c.peek.text = text "match") {subject : Expr}
    (hrun : matchSubject read { c with attempts := c.attempts + 1 } = .ok (some subject) c') :
    ∃ e c'', line read c = .error e c'' := by
  have halike₀ : { c with attempts := c.attempts + 1 }.Alike σ d :=
    ⟨halike.before, halike.rest, halike.final, halike.ends, halike.plain⟩
  obtain ⟨hsubject, hcolon, hbarrier⟩ := exists_of_matchSubject h halike₀ hrun
  obtain ⟨b, hb, halias⟩ := startsTypeAlias_run c
  obtain rfl : b = false := by
    rw [Bool.eq_false_iff]
    intro htrue
    exact absurd (hword.symm.trans (halias htrue).2.1) (by decide)
  have hsimple : simpleStmt read c = expressionStmt read c := by
    rw [simpleStmt, bind_ok (show kind c = .ok .identifier c by rw [← hkind]; rfl)]
    show (startsTypeAlias >>= fun _ => _) c = _
    rw [bind_ok hb, if_neg (by decide)]
  rw [line_eq_lineOf]
  cases hstmt : expressionStmt read c with
  | error e c'' =>
    refine ⟨e, c'', ?_⟩
    simp only [lineOf, bind, EStateM.bind, hsimple, hstmt]
  | ok s c₃ =>
    have hexpression : Mirrors σ True anywhere (Becomes (Stmt.rename σ)) SoftStmt
        (expressionStmt read) (expressionStmt read') := .expressionStmt h
    obtain ⟨hkeeps, d₃, halike₃⟩ :=
      hexpression.exists_alike halike trivial hstmt (yields_expressionStmt read hstmt)
    have hahead : c'.rest <:+ c₃.rest :=
      hkeeps.barrier _ hbarrier (hsubject.forward.trans (Cursor.suffix_advance_rest _))
    -- A barrier behind the statement would be one within the subject, unless it is the colon.
    have hstop : IsBarrier c₃.rest → c₃.peek.kind = .colon := by
      intro hbarrier₃
      have hne : c₃.rest ≠ c.rest := fun heq =>
        Cursor.not_isBarrier (by rw [hkind]; rfl) (heq ▸ hbarrier₃)
      have hback : c₃.rest <:+ c'.rest :=
        hsubject.barrier _ hbarrier₃ (Cursor.suffix_advance hkeeps.forward hne)
      have hrest : c₃.rest = c'.rest := hback.eq_of_length_le hahead.length_le
      rw [← hcolon, peek_eq_of_rest hrest hbarrier.ne_nil]
    have hkinds {kind : TokenKind} (hends : endsStmt kind) : c₃.peek.kind ≠ kind := by
      intro heq
      have hcolon₃ := hstop (isBarrier_of_endsStmt (heq ▸ hends) (by
        rintro hnil
        rw [hnil] at hahead
        exact hbarrier.ne_nil (List.suffix_nil.mp hahead)))
      rw [← heq, hcolon₃] at hends
      cases hends
    exact lineOf_error (hsimple.trans hstmt) (hkinds rfl) (hkinds rfl) (hkinds rfl)

/-! ## All statements -/

/-- A match statement behind its subject. -/
def matchBehind (read : Reading) (field : FieldReading) (inner : Parse (List Stmt))
    (start : Position) (subject : Expr) : Parse Stmt := do
  let _ ← next
  let _ ← next
  let _ ← next
  let cases ← matchCases read field inner
  let _ ← accept .dedent
  stmtFrom start (.matchBlock subject cases)

/-- A match statement is one of a soft keyword. -/
theorem yields_matchBehind (read : Reading) (field : FieldReading) (inner : Parse (List Stmt))
    (start : Position) (subject : Expr) :
    Yields SoftStmt (matchBehind read field inner start subject) :=
  .bind fun _ => .bind fun _ => .bind fun _ => .bind fun _ => .bind fun _ => .stmtFrom fun _ => rfl

theorem matchStmt_none {read : Reading} {field : FieldReading} {inner : Parse (List Stmt)}
    {c : Cursor} (h : attempt (matchSubject read) c = .ok none c) :
    matchStmt read field inner c = .ok none c := by
  rw [matchStmt, bind_ok (peek_run c), bind_ok h]
  rfl

theorem matchStmt_some {read : Reading} {field : FieldReading} {inner : Parse (List Stmt)}
    {c c' : Cursor} {subject : Expr} (h : attempt (matchSubject read) c = .ok (some subject) c') :
    matchStmt read field inner c =
      (matchBehind read field inner c.peek.start subject >>= fun s => pure (some s)) c' := by
  rw [matchStmt, bind_ok (peek_run c), bind_ok h, matchBehind]
  simp only [bind_assoc]

namespace Mirrors

variable {σ : Bytes → Bytes} {pre : Token → Prop} {read read' : Reading}
  {field field' : FieldReading} {inner inner' : Parse (List Stmt)}

theorem single {stmt stmt' : Parse Stmt}
    (h : Mirrors σ False pre (Becomes (Stmt.rename σ)) SoftStmt stmt stmt') :
    Mirrors σ False pre (Becomes (List.map (Stmt.rename σ))) SoftStmts (statements.single stmt)
      (statements.single stmt') := by
  refine h.bindSoft ?_ fun s hs => .pure (softStmts_singleton.mpr hs)
  rintro s _ rfl hs
  exact pure rfl (softStmts_singleton.not.mpr hs)

section Statements

variable (hσ : IsHard σ) (h : ReadingMirrors σ True read read') (hread : StopsBehindName read)
  (hinner : Mirrors σ False anywhere (Becomes (List.map (Stmt.rename σ))) SoftStmts inner inner')

include hσ h hread

/-- Where a match statement begins, nothing can be read once the word is renamed. -/
theorem matchOrLine :
    Mirrors σ False pre (Becomes (List.map (Stmt.rename σ))) SoftStmts
      (isWordAt 0 (text "match") >>= fun b =>
        if b then matchStmt read field inner >>= fun o =>
          match o with
          | some stmt => Pure.pure [stmt]
          | none => Parse.line read
        else Parse.line read)
      (isWordAt 0 (text "match") >>= fun b =>
        if b then matchStmt read' field' inner' >>= fun o =>
          match o with
          | some stmt => Pure.pure [stmt]
          | none => Parse.line read'
        else Parse.line read') := by
  intro c d halike hpre
  have houtcome := line hσ h.weaken hread halike hpre
  have hword : ¬ (d.peek.kind == .identifier && d.peek.text == text "match") = true := by
    intro hword
    simp only [Bool.and_eq_true, beq_iff_eq] at hword
    obtain ⟨hkind, htext⟩ := hword
    rw [halike.peek, Token.kind_rename] at hkind
    rw [halike.peek, Token.text_rename_of_identifier hkind] at htext
    exact hσ.ne_match _ htext
  rw [bind_ok (isWordAt_zero _ c), bind_ok (isWordAt_zero _ d), if_neg hword]
  by_cases hmatch : (c.peek.kind == .identifier && c.peek.text == text "match") = true
  · rw [if_pos hmatch]
    simp only [Bool.and_eq_true, beq_iff_eq] at hmatch
    rcases attempt_run (matchSubject read) c with hnone | ⟨subject, c₁, c', hsome, hrun⟩
    · rw [bind_ok (matchStmt_none hnone)]
      exact houtcome
    · obtain ⟨e, c'', herror⟩ := line_error_of_matchSubject h halike hmatch.1 hmatch.2 hrun
      rw [herror] at houtcome
      obtain ⟨e', d', herror'⟩ := houtcome.exists_error
      rw [herror']
      refine .of_soft fun l c₂ hl => ?_
      obtain ⟨o, c₃, ho, hrest⟩ := exists_of_bind_eq_ok hl
      rw [matchStmt_some hsome] at ho
      obtain ⟨s, c₄, hs, hpure⟩ := exists_of_bind_eq_ok ho
      cases hpure
      cases hrest
      exact softStmts_singleton.mpr (yields_matchBehind read field inner c.peek.start subject hs)
  · rw [if_neg hmatch]
    exact houtcome

include hinner

theorem statements :
    Mirrors σ False pre (Becomes (List.map (Stmt.rename σ))) SoftStmts
      (Parse.statements read field inner) (Parse.statements read' field' inner') := by
  refine peek fun t _ _ => ?_
  rw [t.kind_rename, t.start_rename]
  split
  · exact failAtToken ..
  · exact single (ifStmt hσ h.weaken hread hinner)
  · exact single (whileStmt hσ h.weaken hread hinner)
  · exact single (tryStmt hσ h.weaken hread hinner)
  · exact single (decorated hσ h.weaken hread hinner)
  · exact single (next nofun fun _ _ _ => forStmt hσ h.weaken hread hinner t.start false)
  · exact single (next nofun fun _ _ _ => withStmt hσ h.weaken hread hinner t.start false)
  · exact single (next nofun fun _ _ _ => functionDef hσ h.weaken hread hinner [] t.start false)
  · exact single (next nofun fun _ _ _ => classDef hσ h.weaken hread hinner [] t.start)
  · exact single (next nofun fun _ _ _ => asyncStmt hσ h.weaken hread hinner t.start)
  · exact matchOrLine hσ h hread

end Statements

/-- Statements are read over renamed tokens like over the tokens themselves, unless a soft keyword
begins one of them. -/
theorem statementsUpTo (hσ : IsHard σ) (h : ReadingMirrors σ True read read')
    (hread : StopsBehindName read) :
    ∀ limit : Nat, Mirrors σ False anywhere (Becomes (List.map (Stmt.rename σ))) SoftStmts
      (Parse.statementsUpTo read field limit) (Parse.statementsUpTo read' field' limit)
  | 0 => failHere _
  | limit + 1 => statements hσ h hread (statementsUpTo hσ h hread limit)

end Mirrors


end SyntaxTree.Parse
