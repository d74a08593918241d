import SyntaxTree.Proofs.Ending.Module

/-
# Tried readings leave no trace

A parser has one cursor.  It counts a reading that it tries while that is under way, and where the
reading fails or finds nothing it goes back to the mark that it has set.  All else that the reading
has done to the cursor stays done.  So the cursor is as it was only if no reading within, whether it
succeeds or fails and however deep it is nested, has touched the tokens or has left the count of the
readings under way other than it was.

The same count decides what an error shows: where it is zero, the line of the error and a caret.
-/

namespace SyntaxTree

/-! ## Marks -/

namespace Cursor

variable {c c' : Cursor}

/-- One more reading is under way that may fail without harm. -/
def enter (c : Cursor) : Cursor := { c with attempts := c.attempts + 1 }

/-- One reading less is under way. -/
def leave (c : Cursor) : Cursor := { c with attempts := c.attempts - 1 }

/-- The number of tokens behind the cursor. -/
def mark (c : Cursor) : Nat := c.before.length

/-- The cursor moves among its tokens to the place that has `mark` of them behind it. -/
def rewind (mark : Nat) (c : Cursor) : Cursor :=
  { c with
    before := ((c.before.reverse ++ c.rest).take mark).reverse
    rest := (c.before.reverse ++ c.rest).drop mark }

/-- From wherever a tried reading has come to, the mark leads back to the cursor where it began. -/
theorem rewind_leave (h : c.enter.MovesTo c') : c'.leave.rewind c.mark = c := by
  have hsplit : c'.before.reverse ++ c'.rest = c.before.reverse ++ c.rest := by
    have htokens : c'.before.reverse ++ (c'.rest ++ [c'.final]) =
        c.before.reverse ++ (c.rest ++ [c.final]) := h.tokens
    have hfinal : c'.final = c.final := h.final
    rw [hfinal, ← List.append_assoc, ← List.append_assoc] at htokens
    exact List.append_cancel_right htokens
  have hattempts : c'.attempts - 1 = c.attempts := by
    rw [h.attempts]
    exact Nat.add_sub_cancel c.attempts 1
  have hlines : c'.lines = c.lines := h.lines
  have hfinal : c'.final = c.final := h.final
  rw [rewind, leave, mark]
  dsimp only
  rw [hsplit, hattempts, hlines, hfinal, List.take_left' List.length_reverse,
    List.drop_left' List.length_reverse, List.reverse_reverse]

end Cursor

namespace Parse

variable {α : Type} {depth limit : Nat}

/-! ## Trying in place -/

/-- Tries a reading on the one cursor there is: the reading is counted while it is under way, and
the cursor goes back to its mark if the reading fails or finds nothing. -/
def attemptInPlace (reading : Parse (Option α)) : Parse (Option α) := fun c =>
  match reading c.enter with
  | .ok (some a) c' => .ok (some a) c'.leave
  | .ok none c' | .error _ c' => .ok none (c'.leave.rewind c.mark)

/-- A tried reading leaves no trace at a cursor.  In place it does what the grammar asks for.
Either it finds something and moves on with as many readings under way as before, or it finds
nothing and the cursor is the one where it began. -/
structure LeavesNoTrace (reading : Parse (Option α)) (c : Cursor) : Prop where
  inPlace : attemptInPlace reading c = attempt reading c
  found_or : (∃ a c', attemptInPlace reading c = .ok (some a) c' ∧ c.MovesTo c') ∨
    attemptInPlace reading c = .ok none c

theorem leavesNoTrace_of_ends {taken : Option α → Prop} {reading : Parse (Option α)} {c : Cursor}
    (h : Ends depth limit anywhere taken reading) (hc : c.Within depth limit) :
    LeavesNoTrace reading c := by
  have hsettles : Settles c.enter taken (reading c.enter) :=
    h c.enter ⟨hc.ends, hc.texts, hc.length_lt⟩ trivial
  cases hrun : reading c.enter with
  | error e c' =>
    rw [hrun] at hsettles
    have hplace : attemptInPlace reading c = .ok none c := by
      rw [attemptInPlace, hrun]
      exact congrArg _ (Cursor.rewind_leave hsettles.1)
    have hattempt : attempt reading c = .ok none c := by
      rw [attempt, show reading { c with attempts := c.attempts + 1 } = _ from hrun]
    exact ⟨hplace.trans hattempt.symm, .inr hplace⟩
  | ok o c' =>
    rw [hrun] at hsettles
    obtain ⟨hmove, -⟩ := hsettles
    cases o with
    | none =>
      have hplace : attemptInPlace reading c = .ok none c := by
        rw [attemptInPlace, hrun]
        exact congrArg _ (Cursor.rewind_leave hmove)
      have hattempt : attempt reading c = .ok none c := by
        rw [attempt, show reading { c with attempts := c.attempts + 1 } = _ from hrun]
      exact ⟨hplace.trans hattempt.symm, .inr hplace⟩
    | some a =>
      have hattempts : c'.attempts - 1 = c.attempts := by
        rw [hmove.attempts]
        exact Nat.add_sub_cancel c.attempts 1
      have hplace : attemptInPlace reading c = .ok (some a) c'.leave := by
        rw [attemptInPlace, hrun]
      have hattempt : attempt reading c = .ok (some a) { c' with attempts := c.attempts } := by
        rw [attempt, show reading { c with attempts := c.attempts + 1 } = _ from hrun]
      refine ⟨?_, .inl ⟨a, c'.leave, hplace, ?_⟩⟩
      · rw [hplace, hattempt, Cursor.leave, hattempts]
      · exact ⟨hmove.lines, hmove.tokens, hmove.final, hmove.forward, hattempts⟩

/-! ## Statements that are tried -/

variable {read : Reading} {field : FieldReading} {inner : Parse (List Stmt)} {c c' : Cursor}

/-- No match statement is found only where its subject is not. -/
theorem attempt_of_matchStmt (h : matchStmt read field inner c = .ok none c') :
    attempt (matchSubject read) c = .ok none c' := by
  obtain ⟨start, c₁, hstart, h⟩ := exists_of_bind_eq_ok h
  cases hstart
  obtain ⟨o, c₂, hattempt, h⟩ := exists_of_bind_eq_ok h
  cases o with
  | none =>
    cases h
    exact hattempt
  | some subject =>
    -- behind a subject there is a statement or an error
    obtain ⟨_, c₃, -, h⟩ := exists_of_bind_eq_ok h
    obtain ⟨_, c₄, -, h⟩ := exists_of_bind_eq_ok h
    obtain ⟨_, c₅, -, h⟩ := exists_of_bind_eq_ok h
    obtain ⟨_, c₆, -, h⟩ := exists_of_bind_eq_ok h
    obtain ⟨_, c₇, -, h⟩ := exists_of_bind_eq_ok h
    obtain ⟨_, c₈, -, h⟩ := exists_of_bind_eq_ok h
    cases h

/-- Where no match statement is found, the statement is read as a line. -/
theorem statements_of_matchStmt (hkind : c.peek.kind = .identifier)
    (htext : c.peek.text = text "match")
    (h : matchStmt read field inner c = .ok none c) :
    statements read field inner c = line read c := by
  have hword : isWordAt 0 (text "match") c = .ok true c := by
    have hpeek : c.peekAt 0 = c.peek := by
      rw [Cursor.peekAt, Cursor.peek]
      cases c.rest <;> rfl
    show EStateM.Result.ok
        ((c.peekAt 0).kind == .identifier && (c.peekAt 0).text == text "match") c = _
    rw [hpeek, hkind, htext]
    rfl
  rw [statements, bind_ok (peek_run c), hkind]
  refine (bind_ok hword).trans ?_
  rw [if_pos rfl, bind_ok h]

/-- Where no list of context managers is found in parentheses, they are read as expressions. -/
theorem withItems_of_attempt (hkind : c.peek.kind = .openParen)
    (h : attempt (parenthesizedItems read) c = .ok none c) :
    withItems read c = oneOrMore (withItem read) c := by
  rw [withItems, bind_ok (at?_peek .openParen c), if_pos (by rw [hkind]; rfl), bind_ok h]

end Parse

/-- What is tried at a cursor leaves no trace there.  Where no match statement is found the cursor
has not moved, and the statement is read as a line.  Where no list of context managers is found in
parentheses, the managers are read as if nothing had been tried: none of that list is kept. -/
structure Cursor.Forgets (read : Reading) (c : Cursor) : Prop where
  subject : Parse.LeavesNoTrace (Parse.matchSubject read) c
  managers : Parse.LeavesNoTrace (Parse.parenthesizedItems read) c
  statement : ∀ field inner c', Parse.matchStmt read field inner c = .ok none c' →
    c' = c ∧ (c.peek.kind = .identifier → c.peek.text = text "match" →
      Parse.statements read field inner c = Parse.line read c)
  items : ∀ c', Parse.attemptInPlace (Parse.parenthesizedItems read) c = .ok none c' →
    c' = c ∧ (c.peek.kind = .openParen →
      Parse.withItems read c = Parse.oneOrMore (Parse.withItem read) c)

namespace Parse

variable {α : Type} {reading : Parse (Option α)} {c c' : Cursor}

theorem LeavesNoTrace.eq_of_none (h : LeavesNoTrace reading c)
    (hnone : attemptInPlace reading c = .ok none c') : c' = c := by
  obtain ⟨a, c₁, hsome, -⟩ | hrun := h.found_or
  · rw [hsome] at hnone
    cases hnone
  · rw [hrun] at hnone
    cases hnone
    rfl

end Parse

/-- Readings that end within the bounds of a cursor are forgotten there if they find nothing. -/
theorem Cursor.Within.forgets {depth limit : Nat} {read : Reading} {c : Cursor}
    (hc : c.Within depth limit) (hread : Parse.ReadingEnds depth limit read) : c.Forgets read := by
  have hsubject := Parse.leavesNoTrace_of_ends (Parse.Ends.matchSubject hread) hc
  have hmanagers := Parse.leavesNoTrace_of_ends (Parse.Ends.parenthesizedItems hread) hc
  refine ⟨hsubject, hmanagers, fun field inner c' hnone => ?_, fun c' hnone => ?_⟩
  · have hattempt := Parse.attempt_of_matchStmt hnone
    obtain rfl := hsubject.eq_of_none (hsubject.inPlace.trans hattempt)
    exact ⟨rfl, fun hkind htext => Parse.statements_of_matchStmt hkind htext hnone⟩
  · obtain rfl := hmanagers.eq_of_none hnone
    have hattempt := hmanagers.inPlace.symm.trans hnone
    exact ⟨rfl, fun hkind => Parse.withItems_of_attempt hkind hattempt⟩

/-! ## Errors that leave a call -/

namespace SyntaxError

/-- The message tells the place of the error.  It shows the source line with a caret below the
place, unless the line is empty, and the line that may have been meant, if there is one. -/
def IsShownIn (lines : List Bytes) (e : SyntaxError) : Prop :=
  e.message = e.cause.message ++ text " at line " ++ Bytes.ofInt e.place.line ++
    text ", column " ++ Bytes.ofInt e.place.column ++
    (if lineAt lines e.place.line = [] then []
      else text "\n" ++ lineAt lines e.place.line ++ text "\n" ++
        Bytes.spaces (e.place.column - 1).toNat ++ text "^") ++
    e.suggestion.elim [] (text "\nDid you mean:\n" ++ ·)

theorem line_of (lines : List Bytes) (place : Position) (expected : List Bytes) :
    (ErrorContext.of lines place expected).line = lineAt lines place.line := by
  unfold ErrorContext.of
  dsimp only
  split
  · split <;> rfl
  · rfl

theorem isShownIn_of_context {lines : List Bytes} {e : SyntaxError} {expected : List Bytes}
    (h : e.context = some (.of lines e.place expected)) : e.IsShownIn lines := by
  have hline := line_of lines e.place expected
  rw [IsShownIn, message, suggestion, h]
  dsimp only
  rw [hline, Position.describe, showLine, Option.bind_some]
  cases (ErrorContext.of lines e.place expected).suggestion <;> rfl

end SyntaxError

namespace Call

variable {c : Cursor}

/-- Where no reading is under way, the error of a call shows its line. -/
theorem isShownIn_of_answer [Unicode.CharacterNames] (call : Call)
    (hends : c.final.kind = .endOfInput) (hattempts : c.attempts = 0) {e : SyntaxError}
    (h : (call.answer c).1 = .error e) :
    e.IsShownIn c.lines := by
  have hsettles := call.ends_reading c (Cursor.within_longest hends) trivial
  unfold answer EStateM.run at h
  cases hrun : call.reading c with
  | ok tree c' =>
    rw [hrun] at h
    cases h
  | error e' c' =>
    rw [hrun] at h hsettles
    cases h
    exact SyntaxError.isShownIn_of_context (hsettles.2.2 hattempts)

/-- Behind any calls no reading is under way, and each of their errors shows its line. -/
theorem answers_show [Unicode.CharacterNames] (calls : List Call)
    (hends : c.final.kind = .endOfInput) (hattempts : c.attempts = 0) :
    (answers calls c).2.attempts = 0 ∧
      ∀ e, .error e ∈ (answers calls c).1 → e.IsShownIn c.lines := by
  induction calls generalizing c with
  | nil => exact ⟨hattempts, fun _ h => absurd h List.not_mem_nil⟩
  | cons call rest ih =>
    obtain ⟨-, hmove⟩ := call.answer_ends hends
    obtain ⟨hlast, hrest⟩ := ih (hmove.final ▸ hends) (hmove.attempts.trans hattempts)
    refine ⟨hlast, fun e he => ?_⟩
    rcases List.mem_cons.mp he with he | he
    · exact call.isShownIn_of_answer hends hattempts he.symm
    · exact hmove.lines ▸ hrest e he

end Call

/-- A failed attempt leaves no trace.  At every place of a parser over any tokens, and whatever is
under way there, a match statement and a list of context managers in parentheses are tried in place,
and where one is not found the cursor, the count of the readings under way and the managers are as
before.  So nothing is under way in front of a call and behind it, be its answer a tree or an error,
and every error that leaves a call tells its place and shows its line. -/
theorem attempts_leave_no_trace [Unicode.CharacterNames] (lines : List Bytes) (tokens : List Token)
    (calls : List Call) :
    (∀ c read, (Cursor.ofTokens lines tokens).MovesTo c → Parse.reading c = .ok read c →
      ∀ c', c.MovesTo c' → ∀ attempts, { c' with attempts := attempts }.Forgets read) ∧
    (Call.answers calls (Cursor.ofTokens lines tokens)).2.attempts = 0 ∧
    ∀ e, .error e ∈ (Call.answers calls (Cursor.ofTokens lines tokens)).1 → e.IsShownIn lines := by
  have hends := Cursor.final_ofTokens lines tokens
  refine ⟨fun c read hmove hreading c' hmove' attempts => ?_, ?_⟩
  · obtain ⟨depth, limit, hread, hc⟩ :=
      Parse.exists_readingEnds_of_reading (hmove.final ▸ hends) hreading
    have hc' : c'.Within depth limit := hc.move hmove'
    have htried : Cursor.Within depth limit { c' with attempts := attempts } :=
      ⟨hc'.ends, hc'.texts, hc'.length_lt⟩
    exact htried.forgets hread
  · have hshow := Call.answers_show calls hends (Cursor.attempts_ofTokens lines tokens)
    rwa [Cursor.lines_ofTokens] at hshow

end SyntaxTree
