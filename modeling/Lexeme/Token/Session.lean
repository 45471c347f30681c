import Lexeme.Token.Cursor

/-!
One cursor shared by several readers. Besides direct requests, a session serves streams: a stream
hands out tokens from the shared cursor one at a time and is finished once it has handed out an end
token. Streams are numbered from zero in the order in which they are opened.
-/

namespace Lexeme

inductive Action
  | next
  | take (n : Nat)
  | peek
  | source
  | drain
  | openStream
  | pull (stream : Nat)
  deriving DecidableEq, Repr

inductive Reply
  | token (t : Token)
  | tokens (ts : List Token)
  | char (c : Option Char)
  | source (s : Text)
  | opened (stream : Nat)
  | finished
  deriving DecidableEq, Repr

/-- The shared cursor, and for each stream whether it is finished. -/
structure Session where
  cursor : Cursor
  streams : List Bool

namespace Session

def start (source : Text) : Session := ⟨Cursor.start source, []⟩

/-- The next token for a stream; a finished stream leaves everything as it is. -/
def pull (s : Session) (i : Nat) : Reply × Session :=
  match s.streams[i]? with
  | some false =>
    let after := s.cursor.next
    (.token after.1, ⟨after.2, s.streams.set i (after.1.kind == .eof)⟩)
  | _ => (.finished, s)

def act (s : Session) : Action → Reply × Session
  | .next => (.token s.cursor.next.1, { s with cursor := s.cursor.next.2 })
  | .take n => (.tokens (s.cursor.take n).1, { s with cursor := (s.cursor.take n).2 })
  | .peek => (.char s.cursor.peek?, s)
  | .source => (.source s.cursor.source, s)
  | .drain => (.tokens s.cursor.drain.1, { s with cursor := s.cursor.drain.2 })
  | .openStream => (.opened s.streams.length, { s with streams := s.streams ++ [false] })
  | .pull i => s.pull i

/-- The replies to a list of actions, each with the session that it leaves behind. -/
def run (s : Session) : List Action → List (Reply × Session)
  | [] => []
  | a :: rest =>
    let after := s.act a
    after :: run after.2 rest

def after (s : Session) (actions : List Action) : Session :=
  actions.foldl (fun s a => (s.act a).2) s

end Session

def Reply.handed : Reply → List Token
  | .token t => [t]
  | .tokens ts => ts
  | _ => []

end Lexeme
