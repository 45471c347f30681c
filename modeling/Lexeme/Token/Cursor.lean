import Lexeme.Token.Scan

/-!
A place in a source between two tokens, and the movement from one token to the next. The text ahead
is kept beside the position, so that no step looks at the source again.
-/

namespace Lexeme

structure Cursor where
  source : Text
  position : Nat
  ahead : Text
  deriving DecidableEq, Repr

namespace Cursor

def start (source : Text) : Cursor := ⟨source, 0, source⟩

def readPosition (c : Cursor) : Nat := c.position + 1

/-- The character at the position; none at the end of the source. -/
def current? (c : Cursor) : Option Char := c.ahead.head?

def peek? (c : Cursor) : Option Char := c.ahead.tail.head?

def past (c : Cursor) (f : Found) : Cursor :=
  { c with position := c.position + f.gap.length + f.token.text.length, ahead := f.rest }

def atEnd (c : Cursor) : Cursor :=
  { c with position := c.position + c.ahead.length, ahead := [] }

/-- The next token. At the end of the source it is the end token, however often one asks. -/
def next (c : Cursor) : Token × Cursor :=
  match next? c.ahead with
  | none => (Token.eof, c.atEnd)
  | some f => (f.token, c.past f)

def take : Nat → Cursor → List Token × Cursor
  | 0, c => ([], c)
  | n + 1, c =>
    let after := take n c.next.2
    (c.next.1 :: after.1, after.2)

def drain (c : Cursor) : List Token × Cursor :=
  match _h : next? c.ahead with
  | none => ([Token.eof], c.atEnd)
  | some f =>
    let after := drain (c.past f)
    (f.token :: after.1, after.2)
termination_by c.ahead.length
decreasing_by exact next?_rest_lt _h

theorem drain_of_none {c : Cursor} (h : next? c.ahead = none) :
    c.drain = ([Token.eof], c.atEnd) := by
  rw [drain]
  split
  · rfl
  · simp_all

theorem drain_of_some {c : Cursor} {f : Found} (h : next? c.ahead = some f) :
    c.drain = (f.token :: (c.past f).drain.1, (c.past f).drain.2) := by
  rw [drain]
  split
  · simp_all
  · simp_all

end Cursor
end Lexeme
