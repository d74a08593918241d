import SyntaxTree.Token.Session

/-
# Sessions have no memory

A session answers for its source alone.  Whatever a scan has left behind, the next one starts over,
and a scan that goes on lexeme by lexeme finds the tokens that the division of its source gives.
Between two requests a session holds either the tokens of its source or none at all.
-/

namespace SyntaxTree

namespace Session

/-! ## Scanning -/

/-- The tokens of what a session has not read. -/
def ahead (session : Session) : Except LexicalError (List Token) :=
  session.layout.tokens session.keepComments (Division.ofBytes session.rest).failure
    (Division.ofBytes session.rest).lexemes

/-- What a scan from a session comes to, where certain tokens or an error are ahead: the tokens are
found, or the error is met and the scan stops somewhere. -/
inductive Comes (session : Session) :
    Except LexicalError (List Token) → Option LexicalError × Session → Prop where
  | ok {ts : List Token} {rest : Bytes} {layout : Layout} : Comes session (.ok ts)
    (none, { session with found := session.found ++ ts, rest := rest, layout := layout })
  | error {e : LexicalError} {found : List Token} {rest : Bytes} {layout : Layout} :
    Comes session (.error e)
      (some e, { session with found := found, rest := rest, layout := layout })

section Ahead

variable {session : Session} {b : Byte} {tail : Bytes} (hrest : session.rest = b :: tail)

theorem ahead_nil (h : session.rest = []) : session.ahead = .ok session.layout.finish := by
  rw [ahead, h, Division.ofBytes]
  rfl

include hrest

theorem ahead_of_next_error {cause : LexicalCause} (hnext : Lexeme.next b tail = .error cause) :
    session.ahead = .error (session.layout.fail cause) := by
  rw [ahead, hrest, Division.ofBytes]
  split
  · next hcause =>
    cases hnext.symm.trans hcause
    rfl
  · next hok => cases hnext.symm.trans hok

/-- A lexeme is taken before what stands behind it. -/
theorem ahead_of_next {kind : LexemeKind} {rest : Bytes}
    (hnext : Lexeme.next b tail = .ok (kind, rest)) :
    session.ahead = (do
      let (emitted, layout) ←
        session.layout.step session.keepComments ⟨kind, Lexeme.before (b :: tail) rest⟩
      let more ←
        { session with found := session.found ++ emitted, rest := rest, layout := layout }.ahead
      .ok (emitted ++ more)) := by
  rw [ahead, hrest, Division.ofBytes]
  split
  · next hcause => cases hnext.symm.trans hcause
  · next hok =>
    cases hnext.symm.trans hok
    rfl

end Ahead

/-- A scan comes to what is ahead of it. -/
theorem comes_scan (session : Session) : session.Comes session.ahead session.scan := by
  fun_induction scan session with
  | case1 session hrest =>
    rw [ahead_nil hrest]
    exact .ok
  | case2 session b tail hrest cause hnext =>
    rw [ahead_of_next_error hrest hnext]
    exact .error
  | case3 session b tail hrest kind rest hnext _ e hstep =>
    rw [ahead_of_next hrest hnext, hstep]
    exact .error
  | case4 session b tail hrest kind rest hnext _ emitted layout hstep ih =>
    rw [ahead_of_next hrest hnext, hstep]
    show session.Comes (Except.bind _ fun more => .ok (emitted ++ more)) _
    generalize ahead _ = more at ih ⊢
    generalize scan _ = outcome at ih ⊢
    cases ih with
    | ok =>
      rw [List.append_assoc]
      exact .ok
    | error => exact .error

/-! ## Single requests -/

/-- What a session holds between two requests: the tokens of its source, or none. -/
structure IsSound (session : Session) : Prop where
  finished : session.finished = true →
    tokenize session.keepComments session.source = .ok session.found
  unfinished : session.finished = false → session.found = []

/-- What a request for tokens comes to: tokens are given and kept, and an error leaves none. -/
inductive Answers (session : Session) :
    Except LexicalError (List Token) → Except LexicalError (List Token) × Session → Prop where
  | ok {ts : List Token} {rest : Bytes} {layout : Layout} : Answers session (.ok ts)
    (.ok ts, { session with finished := true, found := ts, rest := rest, layout := layout })
  | error {e : LexicalError} {rest : Bytes} {layout : Layout} : Answers session (.error e)
    (.error e, { session with finished := false, found := [], rest := rest, layout := layout })

variable {session : Session}

/-- A session that has not finished answers for its source, wherever its last scan has stopped and
whatever tokens that scan has found. -/
theorem answers_tokens_of_unfinished (h : session.finished = false) :
    session.Answers (tokenize session.keepComments session.source) session.tokens := by
  have hscan := comes_scan session.restart
  have hahead : session.restart.ahead = tokenize session.keepComments session.source := rfl
  rw [hahead] at hscan
  rw [tokens, if_neg (by rw [h]; exact Bool.false_ne_true)]
  generalize tokenize session.keepComments session.source = r at hscan
  generalize session.restart.scan = outcome at hscan
  obtain ⟨keepComments, source, name, finished, found, rest, layout⟩ := session
  obtain rfl : finished = false := h
  cases hscan with
  | ok => exact .ok
  | error => exact .error

/-- A sound session answers for its source. -/
theorem IsSound.answers_tokens (h : session.IsSound) :
    session.Answers (tokenize session.keepComments session.source) session.tokens := by
  cases hfinished : session.finished with
  | false => exact answers_tokens_of_unfinished hfinished
  | true =>
    rw [tokens, if_pos hfinished, h.finished hfinished]
    obtain ⟨keepComments, source, name, finished, found, rest, layout⟩ := session
    obtain rfl : finished = true := hfinished
    exact .ok

/-! ### What an answer tells -/

variable {r : Except LexicalError (List Token)}
    {answer : Except LexicalError (List Token) × Session}

theorem Answers.fst_eq (h : session.Answers r answer) : answer.1 = r := by
  cases h <;> rfl

theorem Answers.source_eq (h : session.Answers r answer) : answer.2.source = session.source := by
  cases h <;> rfl

theorem Answers.keepComments_eq (h : session.Answers r answer) :
    answer.2.keepComments = session.keepComments := by
  cases h <;> rfl

/-- An error leaves neither tokens nor the mark of a finished scan. -/
theorem Answers.found_eq_nil {e : LexicalError} (h : session.Answers (.error e) answer) :
    answer.2.finished = false ∧ answer.2.found = [] := by
  cases h
  exact ⟨rfl, rfl⟩

theorem Answers.isSound
    (h : session.Answers (tokenize session.keepComments session.source) answer) :
    answer.2.IsSound := by
  generalize hr : tokenize session.keepComments session.source = r at h
  cases h with
  | ok => exact ⟨fun _ => hr, nofun⟩
  | error => exact ⟨nofun, fun _ => rfl⟩

/-! ### What requests keep -/

theorem isSound_new (keepComments : Bool) : (new keepComments).IsSound := ⟨nofun, fun _ => rfl⟩

theorem isSound_load (session : Session) (source name : Bytes) :
    (session.load source name).IsSound :=
  ⟨nofun, fun _ => rfl⟩

/-! ## Sequences of requests -/

/-- What a session is asked for. -/
inductive Request where
  | load (source name : Bytes)
  | tokens
  deriving DecidableEq, Repr

namespace Request

/-- The session behind a request. -/
def apply (session : Session) : Request → Session
  | load source name => session.load source name
  | tokens => session.tokens.2

/-- The source of a session behind a request, from the one in front of it. -/
def sourceBehind (source : Bytes) : Request → Bytes
  | load source _ => source
  | tokens => source

/-- The source that has been loaded last, which is empty before any other. -/
def lastSource (requests : List Request) : Bytes := requests.foldl sourceBehind []

end Request

/-- The session behind requests, one after the other. -/
def after (session : Session) (requests : List Request) : Session :=
  requests.foldl Request.apply session

/-- What a session holds for its options and a source. -/
structure Holds (keepComments : Bool) (source : Bytes) (session : Session) : Prop where
  keepComments_eq : session.keepComments = keepComments
  source_eq : session.source = source
  isSound : session.IsSound

variable {keepComments : Bool} {source : Bytes}

theorem Holds.answers_tokens (h : session.Holds keepComments source) :
    session.Answers (tokenize keepComments source) session.tokens := by
  obtain ⟨rfl, rfl, hsound⟩ := h
  exact hsound.answers_tokens

/-- The step: a request changes at most the source that the session holds. -/
theorem Holds.apply (h : session.Holds keepComments source) (request : Request) :
    (request.apply session).Holds keepComments (request.sourceBehind source) := by
  cases request with
  | load source name => exact ⟨h.keepComments_eq, rfl, isSound_load session source name⟩
  | tokens =>
    have hanswers := h.isSound.answers_tokens
    exact ⟨hanswers.keepComments_eq.trans h.keepComments_eq, hanswers.source_eq.trans h.source_eq,
      hanswers.isSound⟩

/-- The run: behind any requests the session holds the source that was loaded last. -/
theorem Holds.after (h : session.Holds keepComments source) (requests : List Request) :
    (session.after requests).Holds keepComments (requests.foldl Request.sourceBehind source) := by
  induction requests generalizing session source with
  | nil => exact h
  | cons request requests ih => exact ih (h.apply request)

theorem holds_new (keepComments : Bool) : (new keepComments).Holds keepComments [] :=
  ⟨rfl, rfl, isSound_new keepComments⟩

/-- Requests for tokens alone leave the source as it is. -/
theorem Request.foldl_sourceBehind_replicate (source : Bytes) (n : Nat) :
    (List.replicate n Request.tokens).foldl sourceBehind source = source := by
  induction n with
  | zero => rfl
  | succ n ih => exact ih

/-- Behind any requests a session gives the tokens, or the error, that a new one gives for the
source that was loaded last, as often as it is asked; and behind an error it keeps no tokens. -/
theorem tokens_after (keepComments : Bool) (requests : List Request) (name : Bytes) (n : Nat) :
    let session := (new keepComments).after requests
    session.tokens.1 = tokenize keepComments (Request.lastSource requests) ∧
      session.tokens.1 =
        ((new keepComments).load (Request.lastSource requests) name).tokens.1 ∧
      (session.after (List.replicate n .tokens)).tokens.1 = session.tokens.1 ∧
      ∀ e, session.tokens.1 = .error e → session.tokens.2.found = [] := by
  intro session
  have hsession : session.Holds keepComments (Request.lastSource requests) :=
    (holds_new keepComments).after requests
  have hfresh := ((holds_new keepComments).apply (.load (Request.lastSource requests) name))
  have hrepeated := hsession.after (List.replicate n .tokens)
  rw [Request.foldl_sourceBehind_replicate] at hrepeated
  refine ⟨hsession.answers_tokens.fst_eq, ?_, ?_, fun e he => ?_⟩
  · rw [hsession.answers_tokens.fst_eq]
    exact hfresh.answers_tokens.fst_eq.symm
  · rw [hsession.answers_tokens.fst_eq, hrepeated.answers_tokens.fst_eq]
  · have hanswers := hsession.answers_tokens
    rw [← hanswers.fst_eq, he] at hanswers
    exact hanswers.found_eq_nil.2

/-- A source that falls back to an indentation of no block leaves no tokens, though a block has been
opened in front of the error. -/
theorem tokens_after_inconsistent :
    ((new false).after [.load (text "if a:\n    b\n  c\n") (text "f"), .tokens]).tokens.2.found =
    [] := by
  obtain ⟨hfirst, -, -, hfound⟩ :=
    tokens_after false [.load (text "if a:\n    b\n  c\n") (text "f"), .tokens] (text "f") 0
  have herror : ∃ e, tokenize false (text "if a:\n    b\n  c\n") = .error e := by
    cases h : tokenize false (text "if a:\n    b\n  c\n") with
    | error e => exact ⟨e, rfl⟩
    | ok ts =>
      have hfails : (tokenize false (text "if a:\n    b\n  c\n")).toBool = false :=
        by decide +kernel
      rw [h] at hfails
      cases hfails
  obtain ⟨e, he⟩ := herror
  exact hfound e (hfirst.trans he)

end Session

end SyntaxTree
