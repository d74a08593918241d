import SyntaxTree.Token.Layout

/-
# Tokenizing sessions

A session holds one source at a time and divides it into tokens when they are first asked for.  The
tokens are kept for the next time; an error is not.  The scan works on the session itself, lexeme by
lexeme, so that an error leaves behind whatever has been read in front of it.
-/

namespace SyntaxTree

/-- A source under a name, and how far it has been scanned. -/
structure Session where
  keepComments : Bool
  source : Bytes
  name : Bytes
  /-- Whether the tokens found are those of the whole source. -/
  finished : Bool
  /-- The tokens that have been found. -/
  found : List Token
  /-- What the scan has not read. -/
  rest : Bytes
  /-- The layout behind what the scan has read. -/
  layout : Layout
  deriving DecidableEq, Repr

namespace Session

/-- The name of a source that has no other. -/
def defaultName : Bytes := text "<string>"

/-- A session before any source is loaded. -/
def new (keepComments : Bool) : Session :=
  ⟨keepComments, [], defaultName, false, [], [], .start⟩

/-- The session with another source.  The scan stays where it is until tokens are asked for. -/
def load (session : Session) (source name : Bytes) : Session :=
  { session with source := source, name := name, finished := false, found := [] }

/-- The session in front of its source, wherever the last scan has stopped. -/
def restart (session : Session) : Session :=
  { session with found := [], rest := dropMark session.source, layout := .start }

/-- Scans the rest of the source.  At an error the session stands in front of the lexeme that has
it, behind all that has been found. -/
def scan (session : Session) : Option LexicalError × Session :=
  match hrest : session.rest with
  | [] => (none, { session with found := session.found ++ session.layout.finish })
  | b :: tail =>
    match hnext : Lexeme.next b tail with
    | .error cause => (some (session.layout.fail cause), session)
    | .ok (kind, rest) =>
      have : rest.length < session.rest.length := by
        rw [hrest]
        exact Nat.lt_succ_of_le (Lexeme.suffix_of_next hnext).length_le
      match session.layout.step session.keepComments ⟨kind, Lexeme.before (b :: tail) rest⟩ with
      | .error e => (some e, session)
      | .ok (emitted, layout) =>
        scan { session with found := session.found ++ emitted, rest := rest, layout := layout }
termination_by session.rest.length

/-- The tokens of the source, and the session that knows them. -/
def tokens (session : Session) : Except LexicalError (List Token) × Session :=
  if session.finished then (.ok session.found, session)
  else
    match session.restart.scan with
    | (none, session) => (.ok session.found, { session with finished := true })
    | (some e, session) => (.error e, { session with found := [] })

end Session

end SyntaxTree
