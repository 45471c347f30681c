import Lexeme.Json.Quoted
import Lexeme.Token.Basic

/-!
Two written forms of a list of tokens: lines of kind and text with a tab between them, and a JSON
array of objects, one member a line.
-/

namespace Lexeme

inductive Format
  | text
  | json
  deriving DecidableEq, Repr

namespace Format

def all : List Format := [text, json]

def name : Format → Text
  | text => "text".toList
  | json => "json".toList

def ofName? (s : Text) : Option Format := Text.find? all name s

/-- A name that is no format's own stands for lines of text. -/
def ofNameOrText (s : Text) : Format := (ofName? s).getD text

theorem mem_all (f : Format) : f ∈ all := by cases f <;> decide

theorem name_injective {f g : Format} (h : f.name = g.name) : f = g := by
  revert h
  cases f <;> cases g <;> decide

theorem ofName?_eq_some_iff {s : Text} {f : Format} : ofName? s = some f ↔ f.name = s :=
  Text.find?_eq_some_iff mem_all name_injective

end Format

namespace Token

/-- A token as a line of text, without the line end. -/
def row (t : Token) : Text := t.kind.name ++ '\t' :: t.text

/-- A token as a JSON object in an array. -/
def object (t : Token) : Text := Json.object (Json.quoted t.kind.name) (Json.quoted t.text)

end Token

def render (f : Format) (ts : List Token) : Text :=
  match f with
  | .text => Text.joined ['\n'] (ts.map Token.row)
  | .json => Json.array (ts.map Token.object)

end Lexeme
