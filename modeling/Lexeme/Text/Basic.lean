/-!
A text is a list of characters, each one a Unicode scalar value, so every length, offset and position
of the library counts code points. A surrogate is no character; where one can come in, the text is
raw. The functions here are the ones that every writer of text needs, the looking up of things by
their text, and the sets of numbers in which properties of code points are tabulated.
-/

namespace Lexeme

abbrev Text := List Char

namespace Text

def decimal (n : Nat) : Text := Nat.toDigits 10 n

/-- The parts in order, with the separator between neighbours only. -/
def joined {α : Type} (separator : List α) (parts : List (List α)) : List α :=
  separator.intercalate parts

def asciiWhere (p : Char → Bool) : Text := ((List.range 128).map Char.ofNat).filter p

/-- The alphabetical order of texts, by code points: the first one does not come after the second. -/
def notAfter : Text → Text → Bool
  | [], _ => true
  | _ :: _, [] => false
  | a :: as, b :: bs => if a = b then notAfter as bs else a.toNat < b.toNat

section LookUp

variable {α : Type} {all : List α} {text : α → Text}

/-- The one of a text in a list that holds all there is of its kind. -/
def find? (all : List α) (text : α → Text) (s : Text) : Option α := all.find? fun a => text a = s

theorem find?_eq_some_iff (complete : ∀ a, a ∈ all)
    (injective : ∀ {a b}, text a = text b → a = b) {s : Text} {a : α} :
    find? all text s = some a ↔ text a = s := by
  constructor
  · intro h
    simpa using List.find?_some h
  · intro h
    cases found : find? all text s with
    | none => exact absurd h (by simpa using List.find?_eq_none.1 found a (complete a))
    | some b =>
      have hb : text b = s := by simpa using List.find?_some found
      rw [injective (hb.trans h.symm)]

end LookUp

/-- Closed ranges in increasing order. -/
abbrev Ranges := List (Nat × Nat)

/-- The search stops at the first range that begins above the number. -/
def Ranges.holds : Ranges → Nat → Bool
  | [], _ => false
  | (first, last) :: rest, n =>
    if n < first then false else if n ≤ last then true else holds rest n

end Text
end Lexeme
