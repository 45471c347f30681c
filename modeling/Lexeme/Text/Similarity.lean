import Lexeme.Text.Raw

/-!
How alike two texts are: the characters in their longest common block and, on either side of it, in
the blocks found in the same way, counted in both texts and set against their two lengths. Of
several longest blocks the one that comes first in the first text is taken, then in the second. What
the texts are made of is left open, so that words can be set against a raw text.
-/

namespace Lexeme.Text

namespace Similarity

variable {α : Type} [DecidableEq α]

/-- A block of characters that stand at `left` in one text and at `right` in the other. -/
structure Block where
  left : Nat
  right : Nat
  size : Nat

def agreement : List α → List α → Nat
  | a :: as, b :: bs => if a = b then agreement as bs + 1 else 0
  | _, _ => 0

/-- The blocks that start with one text and at any place of another one, from a place on. -/
def blocksWith (left : Nat) (a : List α) : Nat → List α → List Block
  | _, [] => []
  | right, b :: bs => ⟨left, right, agreement a (b :: bs)⟩ :: blocksWith left a (right + 1) bs

/-- The blocks that start at any place of a text, from a place on, and at any place of another. -/
def blocks (b : List α) : Nat → List α → List Block
  | _, [] => []
  | left, a :: as => blocksWith left (a :: as) 0 b ++ blocks b (left + 1) as

/-- The first block than which none is longer. -/
def longestBlock (a b : List α) : Block :=
  (blocks b 0 a).foldl (fun best c => if best.size < c.size then c else best) ⟨0, 0, 0⟩

def shared (a b : List α) : Nat :=
  match longestBlock a b with
  | ⟨left, right, size⟩ =>
    if 0 < size ∧ left < a.length then
      size + shared (a.take left) (b.take right) +
        shared (a.drop (left + size)) (b.drop (right + size))
    else 0
termination_by a.length
decreasing_by all_goals simp only [List.length_take, List.length_drop]; omega

/-- The share of matching characters, as a numerator and a denominator. -/
def ratio (a b : List α) : Nat × Nat := (2 * shared a b, a.length + b.length)

def atLeast (p q : Nat × Nat) : Bool := q.1 * p.2 ≤ p.1 * q.2

end Similarity

/-- The words that agree with a raw text in three fifths of their characters or more: the best three
of them, in alphabetical order. Of two that are equally good the later one in the alphabet is better. -/
def closeMatches (words : List Text) (s : Raw) : List Text :=
  let scored := words.map fun w => (Similarity.ratio (Raw.ofText w) s, w)
  let close := scored.filter fun p => Similarity.atLeast p.1 (3, 5)
  let better (p q : (Nat × Nat) × Text) : Bool :=
    Similarity.atLeast p.1 q.1 && (!Similarity.atLeast q.1 p.1 || notAfter q.2 p.2)
  (((close.mergeSort better).take 3).map (·.2)).mergeSort notAfter

end Lexeme.Text
