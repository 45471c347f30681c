import Lexeme.Text.Hex
import Lexeme.Text.Raw

/-!
A reader of JSON. A text is cut into symbols first, with white space anywhere between them. Then a
machine takes the symbols one at a time and keeps the containers that it is inside of, the innermost
first. Numbers keep their spelling, and objects all of their members in order. Strings are raw, since
the units that they are spelled with may be surrogates with no partner.
-/

namespace Lexeme.Json

inductive Value
  | null
  | bool (b : Bool)
  | number (spelling : Text)
  | string (s : Raw)
  | array (items : List Value)
  | object (members : List (Raw × Value))
  deriving Repr

inductive Symbol
  | openArray
  | closeArray
  | openObject
  | closeObject
  | comma
  | colon
  | string (s : Raw)
  | leaf (v : Value)
  deriving Repr

def isWhite (c : Char) : Bool := c == ' ' || c == '\t' || c == '\r' || c == '\n'

def isHigh (n : Nat) : Bool := 0xd800 ≤ n && n < 0xdc00

def isLow (n : Nat) : Bool := 0xdc00 ≤ n && n < 0xe000

/-- The point that a number stands for. -/
def point (n : Nat) : Point :=
  if isHigh n || isLow n then .surrogate ⟨Fin.ofNat 0x800 (n - 0xd800)⟩ else .char (Char.ofNat n)

/-- The raw text that numbers stand for. A high surrogate and the low one after it are one character;
alone, each of them is a point of its own. -/
def joined : List Nat → Raw
  | [] => []
  | [n] => [point n]
  | n :: m :: rest =>
    if isHigh n && isLow m then
      .char (Char.ofNat (0x10000 + (n - 0xd800) * 0x400 + (m - 0xdc00))) :: joined rest
    else point n :: joined (m :: rest)

/-- The number of a character that is escaped by a letter or by itself. -/
def named? : Char → Option Nat
  | '\x22' => some 0x22
  | '\\' => some 0x5c
  | '/' => some 0x2f
  | 'b' => some 0x08
  | 'f' => some 0x0c
  | 'n' => some 0x0a
  | 'r' => some 0x0d
  | 't' => some 0x09
  | _ => none

/-- The numbers that a string spells up to its closing quote, and the text after the quote. -/
def codes? : Text → Option (List Nat × Text)
  | [] => none
  | '\x22' :: rest => some ([], rest)
  | '\\' :: 'u' :: a :: b :: c :: d :: rest => do
    let n ← Text.Hex.value? [a, b, c, d]
    let (ns, after) ← codes? rest
    return (n :: ns, after)
  | '\\' :: e :: rest => do
    let n ← named? e
    let (ns, after) ← codes? rest
    return (n :: ns, after)
  | c :: rest =>
    if 0x20 ≤ c.toNat then do
      let (ns, after) ← codes? rest
      return (c.toNat :: ns, after)
    else none

namespace Number

def isDigits (s : Text) : Bool := !s.isEmpty && s.all Char.isDigit

def withoutSign (signs : List Char) : Text → Text
  | [] => []
  | c :: rest => if c ∈ signs then rest else c :: rest

def isExponent : Text → Bool
  | [] => true
  | e :: rest => (e == 'e' || e == 'E') && isDigits (withoutSign ['+', '-'] rest)

def isFraction : Text → Bool
  | '.' :: rest => isDigits (rest.takeWhile Char.isDigit) && isExponent (rest.dropWhile Char.isDigit)
  | rest => isExponent rest

/-- The spelling of a number: no plus sign, no needless zero in front, digits around the point. -/
def isSpelling (s : Text) : Bool :=
  let unsigned := withoutSign ['-'] s
  let whole := unsigned.takeWhile Char.isDigit
  isDigits whole && (whole == ['0'] || whole.head? != some '0') &&
    isFraction (unsigned.dropWhile Char.isDigit)

end Number

def isLeafChar (c : Char) : Bool := c.isAlphanum || c == '-' || c == '+' || c == '.'

def leaf? (word : Text) : Option Value :=
  if word = "null".toList then some .null
  else if word = "true".toList then some (.bool true)
  else if word = "false".toList then some (.bool false)
  else if Number.isSpelling word then some (.number word)
  else none

/-- The symbol that starts with a character, and the text after it. -/
def symbol? (c : Char) (rest : Text) : Option (Symbol × Text) :=
  match c with
  | '[' => some (.openArray, rest)
  | ']' => some (.closeArray, rest)
  | '\x7b' => some (.openObject, rest)
  | '\x7d' => some (.closeObject, rest)
  | ',' => some (.comma, rest)
  | ':' => some (.colon, rest)
  | '\x22' => do
    let (ns, after) ← codes? rest
    return (.string (joined ns), after)
  | c => do
    let v ← leaf? (c :: rest.takeWhile isLeafChar)
    return (.leaf v, rest.dropWhile isLeafChar)

theorem codes?_length_le {s after : Text} {ns : List Nat} (h : codes? s = some (ns, after)) :
    after.length ≤ s.length := by
  fun_induction codes? s generalizing ns after with
  | case1 => simp at h
  | case2 rest =>
    obtain ⟨-, rfl⟩ : [] = ns ∧ rest = after := by simpa using h
    simp
  | case3 a b c d rest ih | case4 e rest _ ih =>
    simp only [Option.bind_eq_bind, Option.bind_eq_some_iff, Prod.exists] at h
    obtain ⟨n, -, ms, left, hm, he⟩ := h
    obtain ⟨-, rfl⟩ : n :: ms = ns ∧ left = after := by simpa using he
    have := ih hm
    simp only [List.length_cons]
    omega
  | case5 c rest _ _ _ hc ih =>
    simp only [Option.bind_eq_bind, Option.bind_eq_some_iff, Prod.exists] at h
    obtain ⟨ms, left, hm, he⟩ := h
    obtain ⟨-, rfl⟩ : c.toNat :: ms = ns ∧ left = after := by simpa using he
    have := ih hm
    simp only [List.length_cons]
    omega
  | case6 => simp at h

theorem symbol?_length_le {c : Char} {rest after : Text} {x : Symbol}
    (h : symbol? c rest = some (x, after)) : after.length ≤ rest.length := by
  unfold symbol? at h
  split at h
  case h_7 =>
    simp only [Option.bind_eq_bind, Option.bind_eq_some_iff, Prod.exists] at h
    obtain ⟨ns, left, hn, he⟩ := h
    obtain ⟨-, rfl⟩ : _ ∧ left = after := by simpa using he
    exact codes?_length_le hn
  case h_8 =>
    simp only [Option.bind_eq_bind, Option.bind_eq_some_iff] at h
    obtain ⟨v, -, he⟩ := h
    obtain ⟨-, rfl⟩ : _ ∧ rest.dropWhile isLeafChar = after := by simpa using he
    exact (List.dropWhile_sublist _).length_le
  all_goals
    obtain ⟨-, rfl⟩ : _ ∧ rest = after := by simpa using h
    exact Nat.le_refl _

def symbols? (s : Text) : Option (List Symbol) :=
  match s with
  | [] => some []
  | c :: rest =>
    if isWhite c then symbols? rest
    else match _h : symbol? c rest with
      | none => none
      | some (x, after) => (x :: ·) <$> symbols? after
termination_by s.length
decreasing_by
  · exact Nat.lt_succ_self _
  · exact Nat.lt_succ_of_le (symbol?_length_le _h)

theorem symbols?_white {c : Char} (h : isWhite c = true) (rest : Text) :
    symbols? (c :: rest) = symbols? rest := by
  rw [symbols?, if_pos h]

theorem symbols?_symbol {c : Char} {rest after : Text} {x : Symbol} (hc : isWhite c = false)
    (h : symbol? c rest = some (x, after)) :
    symbols? (c :: rest) = (symbols? after).map (x :: ·) := by
  rw [symbols?, if_neg (by simp [hc])]
  split
  · next hn => exact absurd (h.symm.trans hn) (by simp)
  · next y left hs =>
    obtain ⟨rfl, rfl⟩ : x = y ∧ after = left := by simpa using h.symm.trans hs
    rfl

/-- A container that is not complete yet: what it holds already, and the key of the next member. -/
inductive Frame
  | array (items : List Value)
  | object (members : List (Raw × Value)) (key : Raw)

/-- What is due next, inside of which containers. -/
inductive State
  | value (inside : List Frame)
  | itemOrEnd (inside : List Frame)
  | key (members : List (Raw × Value)) (inside : List Frame)
  | keyOrEnd (inside : List Frame)
  | colon (members : List (Raw × Value)) (key : Raw) (inside : List Frame)
  | afterValue (v : Value) (inside : List Frame)

namespace State

def begin? (inside : List Frame) : Symbol → Option State
  | .openArray => some (itemOrEnd inside)
  | .openObject => some (keyOrEnd inside)
  | .string s => some (afterValue (.string s) inside)
  | .leaf v => some (afterValue v inside)
  | _ => none

def step : State → Symbol → Option State
  | value inside, x => begin? inside x
  | itemOrEnd inside, .closeArray => some (afterValue (.array []) inside)
  | itemOrEnd inside, x => begin? (.array [] :: inside) x
  | key members inside, .string k => some (colon members k inside)
  | keyOrEnd inside, .closeObject => some (afterValue (.object []) inside)
  | keyOrEnd inside, .string k => some (colon [] k inside)
  | colon members k inside, .colon => some (value (.object members k :: inside))
  | afterValue v (.array items :: inside), .comma =>
    some (value (.array (items ++ [v]) :: inside))
  | afterValue v (.array items :: inside), .closeArray =>
    some (afterValue (.array (items ++ [v])) inside)
  | afterValue v (.object members k :: inside), .comma =>
    some (key (members ++ [(k, v)]) inside)
  | afterValue v (.object members k :: inside), .closeObject =>
    some (afterValue (.object (members ++ [(k, v)])) inside)
  | _, _ => none

def run (state : State) (symbols : List Symbol) : Option State := symbols.foldlM step state

/-- A value that is inside of nothing. -/
def whole? : State → Option Value
  | afterValue v [] => some v
  | _ => none

end State

def read? (s : Text) : Option Value := do
  let symbols ← symbols? s
  let state ← State.run (.value []) symbols
  state.whole?

end Lexeme.Json
