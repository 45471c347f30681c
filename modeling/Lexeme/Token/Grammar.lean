import Lexeme.Token.Scan

/-!
The written language, said without a scanner. A source is a row of tokens with white space before
each of them and at the end. Each token is one that its kind admits, and no two tokens that touch
could be read on from one to the other.
-/

namespace Lexeme

def IsGap (w : Text) : Prop := ∀ c ∈ w, isSpace c = true

namespace Token

/-- The text of a token is one that its kind admits inside a source. -/
def WellFormed (t : Token) : Prop :=
  match t.kind with
  | .eof => False
  | .illegal => ∃ c, t.text = [c] ∧ isForeign c = true
  | .ident => t.text ≠ [] ∧ (∀ c ∈ t.text, isWordChar c = true) ∧ ∀ k : Keyword, t.text ≠ k.text
  | .int => t.text ≠ [] ∧ ∀ c ∈ t.text, c.isDigit = true
  | .mark m => t.text = m.text
  | .keyword k => t.text = k.text

def isWord (t : Token) : Bool := t.kind == .ident || t.isKeyword

/-- Reading would go on from one token into the other if nothing stood between them. -/
def RunsInto (t u : Token) : Prop :=
  (t.isWord = true ∧ u.isWord = true) ∨
  (t.kind = .int ∧ u.kind = .int) ∨
  ((t.kind = .mark .assign ∨ t.kind = .mark .bang) ∧ u.text.head? = some '=')

end Token

/-- Tokens, each with the white space before it, and the white space at the end. -/
structure Layout where
  rows : List (Text × Token)
  last : Text

namespace Layout

def tokens (l : Layout) : List Token := l.rows.map (·.2)

def text (l : Layout) : Text := l.rows.flatMap (fun r => r.1 ++ r.2.text) ++ l.last

/-- Neighbours with nothing between them do not run into each other. -/
def Apart : List (Text × Token) → Prop
  | (_, t) :: (gap, u) :: rest => (gap = [] → ¬ t.RunsInto u) ∧ Apart ((gap, u) :: rest)
  | _ => True

structure Proper (l : Layout) : Prop where
  gaps : ∀ r ∈ l.rows, IsGap r.1
  last : IsGap l.last
  tokens : ∀ r ∈ l.rows, r.2.WellFormed
  apart : Apart l.rows

end Layout
end Lexeme
