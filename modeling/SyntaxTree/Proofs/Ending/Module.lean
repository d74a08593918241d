import SyntaxTree.Grammar.Call
import SyntaxTree.Proofs.Ending.Range
import SyntaxTree.Proofs.Ending.Statement
import SyntaxTree.Unicode.NameTable

/-
# Sources and lists of tokens are read to their end

A module and an expression are read to their end over any tokens, and so is whatever a parser is
called for, one call after the other.  No call leaves the tokens that the parser has been given.
-/

namespace SyntaxTree

namespace Parse

variable {α : Type} {depth limit : Nat} {pre : Token → Prop} {c : Cursor}

/-! ## Modules -/

namespace Ends

theorem argumentType {read : Reading} (h : ReadingEnds depth limit read) :
    Ends depth limit pre always (Parse.argumentType read) := by
  refine (accept .star).bind fun b => ite (fun _ => h .expression) fun _ => ?_
  exact (accept .doubleStar).bind fun _ => h .expression

variable [Unicode.CharacterNames]

theorem execModule : Ends depth limit pre never Parse.execModule := by
  refine readings fun depth n field read hfield h => ?_
  refine (untilEnd (Looks.at? _) ?_).bind fun body => result _
  exact stmtsEnd_statementsUpTo h hfield n (Nat.le_refl n)

theorem interactiveModule : Ends depth limit pre never Parse.interactiveModule :=
  execModule.bind fun _ => result _

theorem evalModule : Ends depth limit pre never Parse.evalModule :=
  onlyExpression.bind fun _ => result _

theorem functionTypeModule : Ends depth limit pre never Parse.functionTypeModule := by
  refine reading fun depth n read h => skipNewlines.bind fun _ => (expect _).bind fun _ => ?_
  refine (itemsUntil .closeParen (argumentType h).loosely).bind fun types => ?_
  refine (expect _).bind fun _ => (expect _).bind fun _ => (h .expression).bind fun returns => ?_
  exact skipNewlines.bind fun _ => ifAt .endOfInput (result _) (failHere rfl)

theorem moduleIn : ∀ mode : Mode, Ends depth limit pre never (Parse.moduleIn mode)
  | .exec => execModule
  | .interactive => interactiveModule
  | .eval => evalModule
  | .functionType => functionTypeModule

end Ends

/-- The module that is read in a mode is one of that mode. -/
theorem yields_moduleIn [Unicode.CharacterNames] (mode : Mode) :
    Yields (fun m => m.mode = mode) (moduleIn mode) := by
  cases mode with
  | exec => exact .bind fun _ => .bind fun _ => .bind fun _ => .bind fun _ => .pure rfl
  | interactive => exact .bind fun _ => .pure rfl
  | eval => exact .bind fun _ => .pure rfl
  | functionType =>
    have hlast (m : Module) (hm : m.mode = .functionType) : Yields (fun m => m.mode = .functionType)
        (at? .endOfInput >>= fun b => if b then pure m else failHere .trailingTokens) :=
      .bind fun _ => .ite (.pure hm) (.of_fails (fails_failHere _))
    exact .bind fun _ => .bind fun _ => .bind fun _ => .bind fun _ => .bind fun _ => .bind fun _ =>
      .bind fun _ => .bind fun _ => hlast _ rfl

end Parse

/-! ## Calls -/

namespace Call

/-- An answer to a call: a tree of the kind that was called for, or an error of the grammar. -/
def IsAnsweredBy : Call → Except SyntaxError Node → Prop
  | .module mode, .ok tree => ∃ m, tree = .module m ∧ m.mode = mode
  | .expression, .ok tree => ∃ e, tree = .expr e
  | _, .error e => e.cause.isUnending = false

variable [Unicode.CharacterNames]

theorem ends_reading {depth limit : Nat} :
    ∀ call : Call, Parse.Ends depth limit Parse.anywhere Parse.never call.reading
  | .module mode => (Parse.Ends.moduleIn mode).bind fun _ => .result _
  | .expression => Parse.Ends.onlyExpression.bind fun _ => .result _

theorem yields_reading (call : Call) :
    Parse.Yields (fun tree => call.IsAnsweredBy (.ok tree)) call.reading := by
  cases call with
  | module mode => exact (Parse.yields_moduleIn mode).andThen fun m hm => .pure ⟨m, rfl, hm⟩
  | expression => exact .bind fun e => .pure ⟨e, rfl⟩

/-- A call is answered, and its cursor moves on among the tokens. -/
theorem answer_ends (call : Call) {c : Cursor}
    (hends : c.final.kind = .endOfInput) :
    call.IsAnsweredBy (call.answer c).1 ∧ c.MovesTo (call.answer c).2 := by
  have hsettles := call.ends_reading c (Cursor.within_longest hends) trivial
  unfold answer EStateM.run
  cases hrun : call.reading c with
  | ok tree c' =>
    rw [hrun] at hsettles
    exact ⟨call.yields_reading hrun, hsettles.1⟩
  | error e c' =>
    rw [hrun] at hsettles
    refine ⟨?_, hsettles.1⟩
    cases call <;> exact hsettles.2.1

/-- All calls are answered, each where the one before has left the cursor. -/
theorem answers_end (calls : List Call) {c : Cursor}
    (hends : c.final.kind = .endOfInput) :
    List.Forall₂ IsAnsweredBy calls (answers calls c).1 ∧ c.MovesTo (answers calls c).2 := by
  induction calls generalizing c with
  | nil => exact ⟨.nil, .refl c⟩
  | cons call rest ih =>
    obtain ⟨hanswered, hmove⟩ := call.answer_ends hends
    obtain ⟨hrest, hbehind⟩ := ih (hmove.final ▸ hends)
    exact ⟨.cons hanswered hrest, hmove.trans hbehind⟩

end Call

open scoped Unicode.NameTable in
/-- An expression that stops at the end of the tokens has a module of no statements behind it. -/
example : (Call.answers [.expression, .module .exec]
    (.ofTokens [] [⟨.openParen, text "(", ⟨1, 1⟩, ⟨1, 2⟩⟩])).1.map Except.isOk = [false, true] := by
  decide +kernel

/-! ## Parsers -/

variable [Unicode.CharacterNames]

/-- A parser at a cursor answers calls.  Each call ends with an answer to it and leaves the cursor
further on among the tokens; no token is looked at but these; and no reading is given up, also where
a call tries it and goes on without it. -/
structure Cursor.Serves (start : Cursor) (calls : List Call) : Prop where
  answered : List.Forall₂ Call.IsAnsweredBy calls (Call.answers calls start).1
  moves : start.MovesTo (Call.answers calls start).2
  among : ∀ c, start.MovesTo c → c.IsAmong start.tokens
  tried : ∀ c read, start.MovesTo c → Parse.reading c = .ok read c → ∀ c', c.MovesTo c' →
    ∀ attempts, ¬ (Parse.parenthesizedItems read).GivesUp { c' with attempts := attempts } ∧
      ¬ (Parse.matchSubject read).GivesUp { c' with attempts := attempts }

/-- The reading that is found at a cursor ends within bounds that hold there. -/
theorem Parse.exists_readingEnds_of_reading {c c' : Cursor} {read : Reading}
    (hends : c.final.kind = .endOfInput) (h : Parse.reading c = .ok read c') :
    ∃ depth limit, ReadingEnds depth limit read ∧ c.Within depth limit := by
  cases h
  exact ⟨_, _, readingEnds_readUpTo (fieldEnds_fieldUpTo _) _, Cursor.within_longest hends⟩

theorem Cursor.serves {start : Cursor} (hends : start.final.kind = .endOfInput)
    (calls : List Call) : start.Serves calls where
  answered := (Call.answers_end calls hends).1
  moves := (Call.answers_end calls hends).2
  among c hmove := hmove.tokens ▸ c.isAmong_tokens
  tried c read hmove hreading c' hmove' attempts := by
    obtain ⟨depth, limit, hread, hc⟩ :=
      Parse.exists_readingEnds_of_reading (hmove.final ▸ hends) hreading
    have hc' : c'.Within depth limit := hc.move hmove'
    have htried : Cursor.Within depth limit { c' with attempts := attempts } :=
      ⟨hc'.ends, hc'.texts, hc'.length_lt⟩
    exact ⟨(Parse.Ends.parenthesizedItems hread).not_givesUp htried,
      (Parse.Ends.matchSubject hread).not_givesUp htried⟩

/-- Nothing goes on for ever or leaves what it reads.  A source divides into lexemes that go through
it, and has tokens or a lexical error.  A parser over any tokens, which passes over comments and
puts an end behind the others if there is none, answers all calls.  What it reads of a literal,
whatever its text, stands in that text, and what follows an escape in what follows its first letter.

The guard on the place of a token that is looked at or taken is part of a cursor: the tokens ahead
are a list, and the one that ends the input answers for all places behind it.  So every cursor is
among its own tokens, and what is proved here is that a call leaves them as they are. -/
theorem readings_end_in_range (keepComments : Bool) (source : Bytes) (lines : List Bytes)
    (tokens : List Token) (calls : List Call) :
    ((Division.ofBytes (dropMark source)).Tiles (dropMark source) ∧
      ((∃ ts, tokenize keepComments source = .ok ts ∧
          (Division.ofBytes (dropMark source)).failure = none) ∨
        ∃ e, tokenize keepComments source = .error e)) ∧
    (((Cursor.ofTokens lines tokens).tokens = withoutComments tokens ∨
        ∃ stop, (Cursor.ofTokens lines tokens).tokens =
          withoutComments tokens ++ [.empty .endOfInput [] stop]) ∧
      (Cursor.ofTokens lines tokens).Serves calls) ∧
    (∀ s, (Literal.Parts.of s).StandIn s) ∧
      ∀ names isBytes letter s value rest,
        Literal.readEscape names isBytes letter s = .ok (value, rest) → rest <:+ s := by
  have htokens : (∃ ts, tokenize keepComments source = .ok ts ∧
      (Division.ofBytes (dropMark source)).failure = none) ∨
      ∃ e, tokenize keepComments source = .error e := by
    cases hrun : tokenize keepComments source with
    | ok ts => exact .inl ⟨ts, rfl, Layout.failure_eq_none_of_tokens hrun⟩
    | error e => exact .inr ⟨e, rfl⟩
  refine ⟨⟨Division.tiles_ofBytes _, htokens⟩, ⟨Cursor.tokens_ofTokens lines tokens, ?_⟩,
    Literal.Parts.standIn_of, fun _ _ _ _ _ _ => Literal.suffix_of_readEscape⟩
  exact Cursor.serves (Cursor.final_ofTokens lines tokens) calls

end SyntaxTree
