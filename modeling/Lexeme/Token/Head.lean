import Lexeme.Token.Cursor

/-!
The reading head under a cursor. It moves over the source one character at a time and keeps the
place it stands at, the place it reads next and the character it stands on. A move looks for no end:
from the end of the source it would carry the head past it, so that it is left to whoever moves the
head to stop in time. The loops stop at the character, which is none at the end; the other moves are
as many as the token has characters.
-/

namespace Lexeme

structure Head where
  source : Text
  position : Nat
  readPosition : Nat
  current? : Option Char
  deriving DecidableEq, Repr

namespace Token

/-- The mark, or else the foreign character, that starts with one character and before another. -/
def atMark (c : Char) (d : Option Char) : Token :=
  match d.bind (Mark.pair? c) with
  | some m => ofMark m
  | none =>
    match Mark.single? c with
    | some m => ofMark m
    | none => ⟨.illegal, [c]⟩

end Token

namespace Head

def move (h : Head) : Head where
  source := h.source
  position := h.readPosition
  readPosition := h.readPosition + 1
  current? := h.source[h.readPosition]?

def start (source : Text) : Head := move ⟨source, 0, 0, none⟩

def peek? (h : Head) : Option Char := h.source[h.readPosition]?

def advance : Nat → Head → Head
  | 0, h => h
  | n + 1, h => advance n h.move

/-- The characters that a loop can still stand on. -/
def left (h : Head) : Nat := (h.source.length - h.readPosition) + h.current?.toList.length

theorem left_move_lt {p : Char → Bool} {h : Head} (hp : h.current?.any p = true) :
    h.move.left < h.left := by
  cases hc : h.current? with
  | none => simp [hc] at hp
  | some c =>
    by_cases hr : h.readPosition < h.source.length
    · simp only [left, move, hc, List.getElem?_eq_getElem hr, Option.toList_some,
        List.length_singleton]
      omega
    · simp only [left, move, hc, List.getElem?_eq_none (Nat.le_of_not_lt hr), Option.toList_some,
        Option.toList_none, List.length_singleton, List.length_nil]
      omega

def skip (p : Char → Bool) (h : Head) : Head :=
  if _h : h.current?.any p = true then skip p h.move else h
termination_by h.left
decreasing_by exact left_move_lt _h

/-- The characters that a loop has moved over, and the head after it. -/
def run (p : Char → Bool) (h : Head) : Text × Head :=
  ((h.source.take (h.skip p).position).drop h.position, h.skip p)

/-- The token that starts with the character under the head, and the head after it. -/
def read (h : Head) (c : Char) : Token × Head :=
  if isWordChar c then (Token.ofWord (h.run isWordChar).1, (h.run isWordChar).2)
  else if c.isDigit then (⟨.int, (h.run Char.isDigit).1⟩, (h.run Char.isDigit).2)
  else
    let t := Token.atMark c h.peek?
    (t, h.advance t.text.length)

def next (h : Head) : Token × Head :=
  let h := h.skip isSpace
  match h.current? with
  | none => (Token.eof, h)
  | some c => h.read c

def take : Nat → Head → List Token × Head
  | 0, h => ([], h)
  | n + 1, h =>
    let after := take n h.next.2
    (h.next.1 :: after.1, after.2)

end Head

/-- The head at the place where a cursor stands. -/
def Cursor.head (c : Cursor) : Head := ⟨c.source, c.position, c.readPosition, c.current?⟩

end Lexeme
