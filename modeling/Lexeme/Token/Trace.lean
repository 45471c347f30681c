import Lexeme.Token.Piece

/-!
What a scan reports about itself: that it starts, and each foreign point with its offset. All
reports are of the lowest level of importance, so they show only if that level is asked for.
-/

namespace Lexeme

inductive Level
  | debug
  | info
  | warning
  | error
  | critical
  deriving DecidableEq, Repr

inductive Event
  | primed (first : Option Point)
  | foreign (offset : Nat) (p : Raw)
  deriving DecidableEq, Repr

namespace Level

def all : List Level := [debug, info, warning, error, critical]

def name : Level → Text
  | debug => "DEBUG".toList
  | info => "INFO".toList
  | warning => "WARNING".toList
  | error => "ERROR".toList
  | critical => "CRITICAL".toList

def ofName? (s : Text) : Option Level := Text.find? all name s

def line (l : Level) (message : Text) : Text := l.name ++ ": ".toList ++ message ++ ['\n']

end Level

namespace Event

def level (_ : Event) : Level := .debug

def channel : Text := "scriptlex.lexer".toList

def message : Event → Text
  | primed first =>
    "lexer primed: position=0 read_position=1 char=".toList ++ Raw.quoted first.toList
  | foreign offset p =>
    "illegal character ".toList ++ p.quoted ++ " at offset ".toList ++ Text.decimal offset

def line (e : Event) : Text := e.level.line e.message

end Event

def trace (s : Raw) : List Event :=
  .primed s.head? :: s.placed.filterMap fun p =>
    if p.2.kind = .illegal then some (.foreign p.1 p.2.text) else none

/-- The reports that show when everything below a level is left out. -/
def traceAt (threshold : Level) (s : Raw) : List Event :=
  if threshold = .debug then trace s else []

end Lexeme
