import Lexeme.Text.Basic

/-!
Terminal control sequences: an escape character and an opening bracket, then parameter characters,
then intermediate ones, then one final character. None of them is an escape character, so a sequence
never reaches past the next one, and a text is cleaned piece by piece between its escape characters.
-/

namespace Lexeme.Text

namespace ControlSequence

def escape : Char := '\x1b'

def isParameter (c : Char) : Bool := '0' ≤ c && c ≤ '?'

def isIntermediate (c : Char) : Bool := ' ' ≤ c && c ≤ '/'

def isFinal (c : Char) : Bool := '@' ≤ c && c ≤ '~'

/-- What follows the control sequence that an escape character before this text begins. -/
def rest? : Text → Option Text
  | '[' :: body =>
    match (body.dropWhile isParameter).dropWhile isIntermediate with
    | last :: rest => if isFinal last then some rest else none
    | [] => none
  | _ => none

/-- The text from an escape character to the next one, its control sequence taken out. -/
def cleaned (piece : Text) : Text := (rest? piece).getD (escape :: piece)

end ControlSequence

/-- A text without its control sequences; an escape character that begins none stays. -/
def withoutControlSequences (s : Text) : Text :=
  match s.splitOn ControlSequence.escape with
  | [] => []
  | plain :: pieces => plain ++ pieces.flatMap ControlSequence.cleaned

/-- A text as a line of output, which carries no control sequences. -/
def printed (s : Text) : Text := withoutControlSequences s ++ ['\n']

end Lexeme.Text
