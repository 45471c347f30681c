import Lexeme.Text.Raw
import Lexeme.Token.Render
import Lexeme.Token.Scan

/-!
The scan of a raw text. No token holds a surrogate together with anything else, so the stretches
between surrogates are scanned as texts, and each surrogate is a piece of its own, as a foreign
character is. The pieces are written in the forms in which tokens are.
-/

namespace Lexeme

/-- A token of characters, or a surrogate that stands for itself as an illegal token does. -/
inductive Piece
  | token (t : Token)
  | stray (x : Surrogate)
  deriving DecidableEq, Repr

/-- A point that no token but an illegal one holds. -/
def Point.isForeign : Point → Bool
  | char c => Lexeme.isForeign c
  | surrogate _ => true

namespace Piece

def kind : Piece → Kind
  | token t => t.kind
  | stray _ => .illegal

def text : Piece → Raw
  | token t => Raw.ofText t.text
  | stray x => [.surrogate x]

def row (p : Piece) : Raw := Raw.ofText p.kind.name ++ .char '\t' :: p.text

def object (p : Piece) : Text := Json.object (Json.quoted p.kind.name) (Json.quotedRaw p.text)

def render (f : Format) (ps : List Piece) : Raw :=
  match f with
  | .text => Text.joined [.char '\n'] (ps.map row)
  | .json => Raw.ofText (Json.array (ps.map object))

/-- Tokens as pieces, each at its offset. -/
def ofPlaced (placed : List (Nat × Token)) : List (Nat × Piece) :=
  placed.map fun p => (p.1, token p.2)

end Piece

namespace Raw

/-- The pieces of stretches, each with its offset, given that of the first stretch. -/
def placedFrom (offset : Nat) (first : Text) : List (Surrogate × Text) → List (Nat × Piece)
  | [] => Piece.ofPlaced (Lexeme.placedFrom offset (scan first))
  | (x, next) :: rest =>
    Piece.ofPlaced (Lexeme.placedFrom offset (scan first)) ++
      (offset + first.length, .stray x) :: placedFrom (offset + first.length + 1) next rest

/-- The pieces of a raw text without the end token, each with its offset. -/
def placed (s : Raw) : List (Nat × Piece) := placedFrom 0 s.stretches.1 s.stretches.2

def lexemes (s : Raw) : List Piece := s.placed.map (·.2)

def pieces (s : Raw) : List Piece := s.lexemes ++ [.token Token.eof]

end Raw
end Lexeme
