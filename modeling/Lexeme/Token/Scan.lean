import Lexeme.Token.Basic

/-!
The scanner. White space between tokens is skipped, then the longest token at the head of the text
is read: a run of word characters, a run of digits, a mark of two characters, a mark of one, or one
foreign character. No text is refused.
-/

namespace Lexeme

def isWordChar (c : Char) : Bool := c.isAlpha || c == '_' || c == '$'

def isSpace (c : Char) : Bool := c == ' ' || c == '\t' || c == '\r' || c == '\n'

/-- A character that no token but an illegal one holds. -/
def isForeign (c : Char) : Bool :=
  !(isWordChar c || c.isDigit || isSpace c || (Mark.single? c).isSome)

namespace Token

/-- The mark, or else the foreign character, at the head of a text, and what is left. -/
def readMark (c : Char) (rest : Text) : Token × Text :=
  match rest.head?.bind (Mark.pair? c) with
  | some m => (ofMark m, rest.tail)
  | none =>
    match Mark.single? c with
    | some m => (ofMark m, rest)
    | none => (⟨.illegal, [c]⟩, rest)

/-- The longest token at the head of a text that starts with no white space, and what is left. -/
def read (c : Char) (rest : Text) : Token × Text :=
  if isWordChar c then (ofWord (c :: rest.takeWhile isWordChar), rest.dropWhile isWordChar)
  else if c.isDigit then (⟨.int, c :: rest.takeWhile Char.isDigit⟩, rest.dropWhile Char.isDigit)
  else readMark c rest

theorem read_split (c : Char) (rest : Text) :
    (read c rest).1.text ++ (read c rest).2 = c :: rest := by
  unfold read
  split
  · simp [ofWord]
  split
  · simp
  unfold readMark
  split
  · next m h =>
    obtain ⟨d, hd, hm⟩ := Option.bind_eq_some_iff.1 h
    have := Mark.pair?_eq_some_iff.1 hm
    cases rest with
    | nil => simp at hd
    | cons e r =>
      obtain rfl : e = d := by simpa using hd
      simp [ofMark, this]
  split
  · next m h => simp [ofMark, Mark.single?_eq_some_iff.1 h]
  · simp

theorem read_text_ne_nil (c : Char) (rest : Text) : (read c rest).1.text ≠ [] := by
  unfold read
  split
  · simp [ofWord]
  split
  · simp
  unfold readMark
  split
  · next m _ => cases m <;> simp [ofMark, Mark.text]
  split
  · next m _ => cases m <;> simp [ofMark, Mark.text]
  · simp

end Token

/-- A token found in a text: the white space before it, the token, and the text after it. -/
structure Found where
  gap : Text
  token : Token
  rest : Text

/-- The first token of a text; none if the text is white space only. -/
def next? (s : Text) : Option Found :=
  match s.dropWhile isSpace with
  | [] => none
  | c :: rest => some ⟨s.takeWhile isSpace, (Token.read c rest).1, (Token.read c rest).2⟩

theorem next?_split {s : Text} {f : Found} (h : next? s = some f) :
    s = f.gap ++ f.token.text ++ f.rest := by
  unfold next? at h
  split at h
  · simp at h
  · next c rest hs =>
    obtain rfl := Option.some.inj h
    simp [Token.read_split, ← hs]

theorem next?_text_ne_nil {s : Text} {f : Found} (h : next? s = some f) : f.token.text ≠ [] := by
  unfold next? at h
  split at h
  · simp at h
  · obtain rfl := Option.some.inj h
    exact Token.read_text_ne_nil _ _

theorem next?_rest_lt {s : Text} {f : Found} (h : next? s = some f) :
    f.rest.length < s.length := by
  have hs := congrArg List.length (next?_split h)
  have ht := List.length_pos_iff.2 (next?_text_ne_nil h)
  simp only [List.length_append] at hs
  omega

def scan (s : Text) : List Found :=
  match _h : next? s with
  | none => []
  | some f => f :: scan f.rest
termination_by s.length
decreasing_by exact next?_rest_lt _h

theorem scan_of_none {s : Text} (h : next? s = none) : scan s = [] := by
  rw [scan]
  split
  · rfl
  · simp_all

theorem scan_of_some {s : Text} {f : Found} (h : next? s = some f) :
    scan s = f :: scan f.rest := by
  rw [scan]
  split
  · simp_all
  · simp_all

/-- The tokens of a text without the one at its end. -/
def lexemes (s : Text) : List Token := (scan s).map Found.token

def tokenize (s : Text) : List Token := lexemes s ++ [Token.eof]

/-- The tokens of a list of findings, each with its offset, given that of the first finding. -/
def placedFrom (offset : Nat) : List Found → List (Nat × Token)
  | [] => []
  | f :: fs =>
    (offset + f.gap.length, f.token) ::
      placedFrom (offset + f.gap.length + f.token.text.length) fs

/-- The tokens of a text without the end token, each with its offset. -/
def placed (s : Text) : List (Nat × Token) := placedFrom 0 (scan s)

end Lexeme
