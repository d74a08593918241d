import SyntaxTree.Proofs.Grammar.Climb
import SyntaxTree.Proofs.Rename.Simple

/-
# Lines over renamed tokens

A renaming is hard if no name becomes the word `match` or `type`.  A type alias then turns into two
names side by side: the first is a statement of its own, and no line goes on with the second.
-/

namespace SyntaxTree

/-- A renaming after which the words `match` and `type` are gone. -/
structure IsHard (σ : Bytes → Bytes) : Prop where
  ne_match (name : Bytes) : σ name ≠ text "match"
  ne_type (name : Bytes) : σ name ≠ text "type"
  /-- The star of an import is no name. -/
  star : σ (text "*") = text "*"

namespace Parse

variable {α β : Type}

/-! ## Settled statements -/

/-- A statement behind which no name follows. -/
def settled (stmt : Parse α) : Parse α := do
  let s ← stmt
  if ← at? .identifier then failHere .unfinishedStatement else return s

theorem settled_eq_ok {stmt : Parse α} {c c' : Cursor} {s : α} :
    settled stmt c = .ok s c' ↔ stmt c = .ok s c' ∧ c'.peek.kind ≠ .identifier := by
  constructor
  · intro h
    obtain ⟨s', c₁, hstmt, hrest⟩ := exists_of_bind_eq_ok h
    rw [bind_ok (at?_peek _ c₁)] at hrest
    by_cases hkind : c₁.peek.kind = .identifier
    · rw [if_pos (by simpa using hkind)] at hrest
      cases hrest
    · rw [if_neg (by simpa using hkind)] at hrest
      cases hrest
      exact ⟨hstmt, hkind⟩
  · rintro ⟨hstmt, hkind⟩
    rw [settled, bind_ok hstmt, bind_ok (at?_peek _ c'), if_neg (by simpa using hkind)]
    rfl

/-- A further statement of a line, if one follows. -/
def furtherStmt (stmt : Parse α) : Parse (Option α) := do
  if ← accept .semicolon then
    if ← endsLine then return none else return some (← stmt)
  else return none

/-- The end of a line behind its statements. -/
def endLine (statements : List α) : Parse (List α) := do
  if ← accept .newline then return statements
  else if ← at? .endOfInput then return statements
  else failHere .unfinishedStatement

/-- The statements of a line. -/
def lineOf (stmt : Parse α) : Parse (List α) := do
  let first ← stmt
  let rest ← collect (furtherStmt stmt)
  endLine (first :: rest)

theorem line_eq_lineOf (read : Reading) : line read = lineOf (simpleStmt read) := rfl

/-- No further statement follows at a token that is no semicolon. -/
theorem furtherStmt_none (stmt : Parse α) {c : Cursor} (h : c.peek.kind ≠ .semicolon) :
    furtherStmt stmt c = .ok none c := by
  rw [furtherStmt, bind_ok (accept_of_ne h)]
  rfl

theorem collectUpTo_furtherStmt_nil (stmt : Parse α) {c : Cursor} (h : c.peek.kind ≠ .semicolon)
    (limit : Nat) : collectUpTo (furtherStmt stmt) (limit + 1) c = .ok [] c := by
  rw [collectUpTo, bind_ok (furtherStmt_none stmt h)]
  rfl

theorem endsLine_run (c : Cursor) : ∃ b, endsLine c = .ok b c := by
  rw [endsLine, bind_ok (at?_peek _ c)]
  split
  · exact ⟨true, rfl⟩
  · exact ⟨_, at?_peek _ c⟩

theorem bind_some_eq_ok {p : Parse α} {c c' : Cursor} {o : Option α} :
    (p >>= fun a => pure (some a)) c = .ok o c' ↔ ∃ a, o = some a ∧ p c = .ok a c' := by
  constructor
  · intro h
    obtain ⟨a, c₁, hp, hrest⟩ := exists_of_bind_eq_ok h
    cases hrest
    exact ⟨a, rfl, hp⟩
  · rintro ⟨a, rfl, hp⟩
    rw [bind_ok hp]
    rfl

/-- A further statement is settled if it is one in front of anything but a name. -/
theorem furtherStmt_settled_eq_ok {stmt : Parse α} {c c' : Cursor} {o : Option α} :
    furtherStmt (settled stmt) c = .ok o c' ↔
      furtherStmt stmt c = .ok o c' ∧ (o.isSome → c'.peek.kind ≠ .identifier) := by
  by_cases hsemicolon : c.peek.kind = .semicolon
  · obtain ⟨b, hends⟩ := endsLine_run c.advance
    rw [furtherStmt, furtherStmt, bind_ok (accept_of_eq hsemicolon),
      bind_ok (accept_of_eq hsemicolon), if_pos rfl, if_pos rfl, bind_ok hends, bind_ok hends]
    cases b with
    | true =>
      rw [if_pos rfl, if_pos rfl]
      refine ⟨fun h => ⟨h, ?_⟩, And.left⟩
      cases h
      exact nofun
    | false =>
      rw [if_neg (by decide), if_neg (by decide), bind_some_eq_ok, bind_some_eq_ok]
      constructor
      · rintro ⟨s, rfl, hs⟩
        exact ⟨⟨s, rfl, (settled_eq_ok.mp hs).1⟩, fun _ => (settled_eq_ok.mp hs).2⟩
      · rintro ⟨⟨s, rfl, hs⟩, hkind⟩
        exact ⟨s, rfl, settled_eq_ok.mpr ⟨hs, hkind rfl⟩⟩
  · rw [furtherStmt_none _ hsemicolon, furtherStmt_none _ hsemicolon]
    refine ⟨fun h => ⟨h, ?_⟩, And.left⟩
    cases h
    exact nofun

/-- What is collected in front of anything but a name is settled all along. -/
theorem collectUpTo_settled {stmt : Parse α} {c c' : Cursor} {l : List α} {limit : Nat}
    (hkind : c'.peek.kind ≠ .identifier) :
    collectUpTo (furtherStmt (settled stmt)) limit c = .ok l c' ↔
      collectUpTo (furtherStmt stmt) limit c = .ok l c' := by
  induction limit generalizing c l with
  | zero => exact .rfl
  | succ limit ih =>
    constructor
    · intro h
      obtain ⟨o, c₁, hitem, hrest⟩ := exists_of_bind_eq_ok h
      replace hitem := (furtherStmt_settled_eq_ok.mp hitem).1
      cases o with
      | none =>
        cases hrest
        exact collectUpTo_none hitem limit
      | some a =>
        obtain ⟨l, c₂, hl, hpure⟩ := exists_of_bind_eq_ok hrest
        cases hpure
        exact collectUpTo_some hitem (ih.mp hl)
    · intro h
      obtain ⟨o, c₁, hitem, hrest⟩ := exists_of_bind_eq_ok h
      cases o with
      | none =>
        cases hrest
        exact collectUpTo_none (furtherStmt_settled_eq_ok.mpr ⟨hitem, nofun⟩) limit
      | some a =>
        obtain ⟨l, c₂, hl, hpure⟩ := exists_of_bind_eq_ok hrest
        cases hpure
        -- If a name followed, nothing more would be collected and the name would still be there.
        have hname : c₁.peek.kind ≠ .identifier := by
          intro hname
          cases limit with
          | zero => cases hl
          | succ limit =>
            rw [collectUpTo_furtherStmt_nil _ (by rw [hname]; decide)] at hl
            cases hl
            exact hkind hname
        exact collectUpTo_some (furtherStmt_settled_eq_ok.mpr ⟨hitem, fun _ => hname⟩) (ih.mpr hl)

theorem collect_settled {stmt : Parse α} {c c' : Cursor} {l : List α}
    (hkind : c'.peek.kind ≠ .identifier) :
    collect (furtherStmt (settled stmt)) c = .ok l c' ↔ collect (furtherStmt stmt) c = .ok l c' :=
  collectUpTo_settled hkind

theorem kind_ne_of_endLine {statements l : List α} {c c' : Cursor}
    (h : endLine statements c = .ok l c') : c.peek.kind ≠ .identifier := by
  intro hkind
  rw [endLine, bind_ok (accept_of_ne (by rw [hkind]; decide)), if_neg (by decide),
    bind_ok (at?_peek _ c), if_neg (by rw [hkind]; decide)] at h
  cases h

/-- A line has the same statements if each must be settled. -/
theorem lineOf_settled_eq_ok {stmt : Parse α} {c c' : Cursor} {l : List α} :
    lineOf (settled stmt) c = .ok l c' ↔ lineOf stmt c = .ok l c' := by
  constructor
  · intro h
    obtain ⟨first, c₁, hfirst, h⟩ := exists_of_bind_eq_ok h
    obtain ⟨rest, c₂, hcollect, hend⟩ := exists_of_bind_eq_ok h
    rw [lineOf, bind_ok (settled_eq_ok.mp hfirst).1,
      bind_ok ((collect_settled (kind_ne_of_endLine hend)).mp hcollect)]
    exact hend
  · intro h
    obtain ⟨first, c₁, hfirst, h⟩ := exists_of_bind_eq_ok h
    obtain ⟨rest, c₂, hcollect, hend⟩ := exists_of_bind_eq_ok h
    have hkind := kind_ne_of_endLine hend
    have hname : c₁.peek.kind ≠ .identifier := by
      intro hname
      have hnil : collect (furtherStmt stmt) c₁ = .ok [] c₁ :=
        collectUpTo_furtherStmt_nil _ (by rw [hname]; decide) _
      rw [hnil] at hcollect
      cases hcollect
      exact hkind hname
    rw [lineOf, bind_ok (settled_eq_ok.mpr ⟨hfirst, hname⟩),
      bind_ok ((collect_settled hkind).mpr hcollect)]
    exact hend

namespace Mirrors

variable {σ : Bytes → Bytes} {keep : Prop} {pre : Token → Prop} {read read' : Reading}

section Lines

variable {f : α → β} {soft : α → Prop} {stmt : Parse α} {stmt' : Parse β}

theorem settled (h : Mirrors σ keep pre (Becomes f) soft stmt stmt') :
    Mirrors σ keep pre (Becomes f) soft (Parse.settled stmt) (Parse.settled stmt') :=
  h.bindSoft (fun _ _ hab ha => ifAt .identifier (failHere _) (pure hab ha)) fun _ ha =>
    .bind fun _ => .ite (.of_fails (fails_failHere _)) (.pure ha)

theorem endsLine : Mirrors σ keep pre Eq never Parse.endsLine Parse.endsLine :=
  ifAt .newline (pure rfl id) (atKind .endOfInput)

theorem furtherStmt (h : Mirrors σ False anywhere (Becomes f) soft stmt stmt') :
    Mirrors σ False pre (Becomes (Option.map f)) (fun o => ∃ a ∈ o, soft a)
      (Parse.furtherStmt stmt) (Parse.furtherStmt stmt') := by
  refine ifAccept .semicolon nofun (test endsLine (pure rfl (by simp)) (h.bindSoft ?_ ?_))
    (pure rfl (by simp))
  · rintro a _ rfl ha
    exact pure rfl (by simpa using ha)
  · intro a ha
    exact .pure ⟨a, rfl, ha⟩

theorem endLine {soft : List α → Prop} {l : List α} (hl : ¬ soft l) :
    Mirrors σ False pre (Becomes (List.map f)) soft (Parse.endLine l)
      (Parse.endLine (l.map f)) :=
  ifAccept .newline nofun (pure rfl hl) (ifAt .endOfInput (pure rfl hl) (failHere _))

omit f stmt' in
/-- A line holds the statements that have been read. -/
theorem yields_endLine {soft : List α → Prop} {l : List α} (hl : soft l) :
    Yields soft (Parse.endLine l) :=
  .bind fun _ => .ite (.pure hl) (.bind fun _ => .ite (.pure hl) (.of_fails (fails_failHere _)))

/-- A line is mirrored if its statements are where they are settled. -/
theorem lineOf (h : Mirrors σ False anywhere (Becomes f) soft (Parse.settled stmt)
      (Parse.settled stmt')) :
    Mirrors σ False pre (Becomes (List.map f)) (fun l => ∃ a ∈ l, soft a) (Parse.lineOf stmt)
      (Parse.lineOf stmt') := by
  have hsettled : Mirrors σ False pre (Becomes (List.map f)) (fun l => ∃ a ∈ l, soft a)
      (Parse.lineOf (Parse.settled stmt)) (Parse.lineOf (Parse.settled stmt')) := by
    refine h.at_any.bindSoft ?_ ?_
    · rintro first _ rfl hfirst
      refine (collectSoft (furtherStmt h)).bindSoft ?_ ?_
      · rintro rest _ rfl hrest
        exact endLine (by simpa [hfirst] using hrest)
      · rintro rest ⟨a, ha, hsoft⟩
        exact yields_endLine ⟨a, List.mem_cons_of_mem first ha, hsoft⟩
    · intro first hfirst
      exact .bind fun rest => yields_endLine ⟨first, List.mem_cons_self, hfirst⟩
  exact hsettled.congr_ok (fun _ _ _ => lineOf_settled_eq_ok.symm) fun _ _ _ =>
    lineOf_settled_eq_ok.symm

end Lines

end Mirrors

/-! ## Type aliases -/

/-- A reading of an expression that stops behind a name in front of another name. -/
def StopsBehindName (read : Reading) : Prop :=
  ∀ c : Cursor, c.rest ≠ [] → c.peek.kind = .identifier → (c.peekAt 1).kind = .identifier →
    ∃ v c', read .expression c = .ok v c' ∧ c'.peek.kind = .identifier

theorem stopsBehindName_readUpTo (field : FieldReading) {limit : Nat} (hlimit : 1 < limit) :
    StopsBehindName (readUpTo field limit) := by
  intro c hrest hfirst hsecond
  obtain ⟨w, w', more, hwords, hw, hw'⟩ : ∃ w w' more, c.words = w :: w' :: more ∧
      w.kind = .identifier ∧ w'.kind = .identifier := by
    obtain ⟨_, _, rest, final, _⟩ := c
    rcases rest with _ | ⟨t, _ | ⟨u, rest⟩⟩
    · exact absurd rfl hrest
    · exact ⟨t.word, final.word, [], rfl, hfirst, hsecond⟩
    · exact ⟨t.word, u.word, (rest ++ [final]).map Token.word, rfl, hfirst, hsecond⟩
  have hname : Reads .expression [w] _ :=
    ((Leads.name hw).reads (.inr rfl)).mono (by decide)
  obtain ⟨v, c', hrun, hc', -⟩ := hname.read (g := .expression) field (n := limit) hlimit hwords
    (by rw [hw']; decide)
  exact ⟨v, c', hrun, (Cursor.kind_peek hc').trans hw'⟩

/-- An expression statement that begins with two names takes only the first. -/
theorem settled_expressionStmt_error {read : Reading} (hread : StopsBehindName read) {c : Cursor}
    (hrest : c.rest ≠ []) (hfirst : c.peek.kind = .identifier)
    (hsecond : (c.peekAt 1).kind = .identifier) :
    ∃ e c', settled (expressionStmt read) c = .error e c' := by
  obtain ⟨v, c', hrun, hkind⟩ := hread c hrest hfirst hsecond
  have hne {kind : TokenKind} (h : kind ≠ .identifier) : c'.peek.kind ≠ kind := by
    rw [hkind]
    exact h.symm
  have hitem : starExpression read c = .ok v c' := by
    rw [starExpression, starredOr, bind_ok (at?_peek _ c), if_neg (by rw [hfirst]; decide)]
    exact hrun
  have hexpressions : yieldOrExpressions read c = .ok v c' := by
    rw [yieldOrExpressions, bind_ok (at?_peek _ c), if_neg (by rw [hfirst]; decide),
      starExpressions, tupleOf, bind_ok hitem, bind_ok (at?_peek _ c'),
      if_neg (by simpa using hne (by decide))]
    rfl
  have hstmt : expressionStmt read c =
      (plainValue v >>= fun value => stmtFrom c.peek.start (.expression value)) c' := by
    rw [expressionStmt, bind_ok (peek_run c), bind_ok hexpressions,
      bind_ok (accept_of_ne (hne (by decide))), if_neg (by decide),
      bind_ok (show kind c' = .ok .identifier c' by rw [← hkind]; rfl)]
    show (at? .equal >>= fun _ => _) c' = _
    rw [bind_ok (at?_peek _ c'), if_neg (by simpa using hne (by decide))]
  cases hrun : settled (expressionStmt read) c with
  | error e c'' => exact ⟨e, c'', rfl⟩
  | ok s c'' =>
    obtain ⟨hs, hend⟩ := settled_eq_ok.mp hrun
    obtain ⟨value, c₁, hvalue, hfrom⟩ := exists_of_bind_eq_ok (hstmt.symm.trans hs)
    cases hfrom
    rw [plainValue] at hvalue
    split at hvalue
    · cases hvalue
    · cases hvalue
      exact absurd hkind hend

theorem isWordAt_zero (word : Bytes) (c : Cursor) :
    isWordAt 0 word c = .ok (c.peek.kind == .identifier && c.peek.text == word) c := by
  obtain ⟨_, _, rest, _, _⟩ := c
  cases rest <;> rfl

/-- Whether a type alias begins at the cursor is seen without a move. -/
theorem startsTypeAlias_run (c : Cursor) :
    ∃ b, startsTypeAlias c = .ok b c ∧ (b = true → c.peek.kind = .identifier ∧
      c.peek.text = text "type" ∧ (c.peekAt 1).kind = .identifier) := by
  rw [startsTypeAlias, bind_ok (isWordAt_zero _ c)]
  split
  · next hword =>
    simp only [Bool.and_eq_true, beq_iff_eq] at hword
    refine ⟨_, rfl, fun h => ⟨hword.1, hword.2, ?_⟩⟩
    exact beq_iff_eq.mp (Bool.and_eq_true_iff.mp h).1
  · exact ⟨false, rfl, nofun⟩

/-! ## Simple statements and lines -/

/-- A type alias is a statement of a soft keyword. -/
theorem yields_typeAliasStmt (read : Reading) : Yields SoftStmt (typeAliasStmt read) :=
  .bind fun _ => .bind fun _ => .bind fun _ => .bind fun _ => .bind fun _ => .bind fun _ =>
    .bind fun _ =>
    .pure rfl

namespace Mirrors

variable {σ : Bytes → Bytes} {pre : Token → Prop} {read read' : Reading}

section Hard

variable (hσ : IsHard σ) (h : ReadingMirrors σ False read read') (hread : StopsBehindName read)

include hσ h hread

/-- Where a type alias began, two names stand side by side. -/
theorem stmtOrAlias :
    Mirrors σ False pre (Becomes (Stmt.rename σ)) SoftStmt
      (Parse.settled (startsTypeAlias >>= fun b =>
        if b then typeAliasStmt read else Parse.expressionStmt read))
      (Parse.settled (startsTypeAlias >>= fun b =>
        if b then typeAliasStmt read' else Parse.expressionStmt read')) := by
  intro c d halike hpre
  have houtcome := (expressionStmt h).settled halike hpre
  obtain ⟨b, hb, hword⟩ := startsTypeAlias_run c
  obtain ⟨b', hb', hword'⟩ := startsTypeAlias_run d
  obtain rfl : b' = false := by
    rw [Bool.eq_false_iff]
    intro htrue
    obtain ⟨hkind, htext, -⟩ := hword' htrue
    rw [halike.peek, Token.kind_rename] at hkind
    rw [halike.peek, Token.text_rename_of_identifier hkind] at htext
    exact hσ.ne_type _ htext
  rw [Parse.settled, bind_assoc, bind_ok hb, Parse.settled, bind_assoc, bind_ok hb']
  show Outcome σ False c _ _
    (Parse.settled (if b then typeAliasStmt read else Parse.expressionStmt read) c)
    (Parse.settled (Parse.expressionStmt read') d)
  cases b with
  | false => exact houtcome
  | true =>
    obtain ⟨hkind, -, hnext⟩ := hword rfl
    obtain ⟨e, c', herror⟩ := settled_expressionStmt_error hread
      (halike.rest_ne_nil (by rw [hkind]; decide)) hkind hnext
    rw [herror] at houtcome
    obtain ⟨e', d', herror'⟩ := houtcome.exists_error
    rw [if_pos rfl, herror']
    exact .of_soft fun a c'' ha => yields_typeAliasStmt read (settled_eq_ok.mp ha).1

theorem simpleStmt :
    Mirrors σ False pre (Becomes (Stmt.rename σ)) SoftStmt
      (Parse.settled (Parse.simpleStmt read)) (Parse.settled (Parse.simpleStmt read')) := by
  rw [Parse.settled, Parse.simpleStmt, bind_assoc, Parse.settled, Parse.simpleStmt, bind_assoc]
  refine kind fun t _ => ?_
  split
  · exact (wordStmt rfl rfl fun _ => by nofun).settled.at_token ‹_›
  · exact (wordStmt rfl rfl fun _ => by nofun).settled.at_token ‹_›
  · exact (wordStmt rfl rfl fun _ => by nofun).settled.at_token ‹_›
  · exact (returnStmt h).settled.at_token ‹_›
  · exact (raiseStmt h).settled.at_token ‹_›
  · exact (deleteStmt h).settled.at_token ‹_›
  · exact (assertStmt h).settled.at_token ‹_›
  · exact globalStmt.settled.at_token ‹_›
  · exact nonlocalStmt.settled.at_token ‹_›
  · exact importStmt.settled.at_token ‹_›
  · exact (importFromStmt hσ.star).settled.at_token ‹_›
  · exact stmtOrAlias hσ h hread

theorem line :
    Mirrors σ False pre (Becomes (List.map (Stmt.rename σ))) SoftStmts (Parse.line read)
      (Parse.line read') :=
  (lineOf (simpleStmt hσ h hread)).congr_soft fun _ => Stmt.anySoft_iff.symm

end Hard

end Mirrors

end Parse

end SyntaxTree
