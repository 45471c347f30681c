import Lexeme.Text.Quoted
import Lexeme.Token.Kind

/-!
A token is a kind and the text it was read from; the token at the end of a source carries a text of
its own. Tokens are plain data: nothing ties the text of a token to its kind except that the scanner
makes them so.
-/

namespace Lexeme

structure Token where
  kind : Kind
  text : Text
  deriving DecidableEq, Repr

namespace Token

def eof : Token := ⟨.eof, Kind.endText⟩

def ofMark (m : Mark) : Token := ⟨.mark m, m.text⟩

/-- A run of word characters is a keyword if it is spelled like one, and an identifier otherwise. -/
def ofWord (s : Text) : Token := ⟨(Keyword.ofText? s).elim .ident .keyword, s⟩

def isKeyword (t : Token) : Bool :=
  match t.kind with
  | .keyword _ => true
  | _ => false

def shown (t : Token) : Text :=
  "Token(".toList ++ t.kind.name ++ ", ".toList ++ t.text.quoted ++ ")".toList

end Token
end Lexeme
