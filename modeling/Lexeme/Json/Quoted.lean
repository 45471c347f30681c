import Lexeme.Text.Raw

/-!
JSON in printable ASCII. In a string, what is neither printable ASCII nor has a short escape is
written in UTF-16 units of four hexadecimal digits, two of them above U+FFFF. The objects in use have
two members, and arrays of them have one member of an object a line.
-/

namespace Lexeme.Json

def unit (n : Nat) : Text := '\\' :: 'u' :: Text.Hex.fixed 4 n

/-- A code point in one unit, or in two if it lies above U+FFFF. -/
def units (n : Nat) : Text :=
  if n < 0x10000 then unit n
  else unit (0xd800 + (n - 0x10000) / 0x400) ++ unit (0xdc00 + (n - 0x10000) % 0x400)

/-- One character of a string; those without a short escape are written raw if printable. -/
def escape (c : Char) : Text :=
  if c = '\x22' then ['\\', '\x22']
  else if c = '\\' then ['\\', '\\']
  else if c = '\n' then ['\\', 'n']
  else if c = '\r' then ['\\', 'r']
  else if c = '\t' then ['\\', 't']
  else if c = '\x08' then ['\\', 'b']
  else if c = '\x0c' then ['\\', 'f']
  else if 0x20 ≤ c.toNat ∧ c.toNat ≤ 0x7e then [c]
  else units c.toNat

def quoted (s : Text) : Text := '\x22' :: s.flatMap escape ++ ['\x22']

def escapePoint : Point → Text
  | .char c => escape c
  | .surrogate x => unit x.number

def quotedRaw (s : Raw) : Text := '\x22' :: s.flatMap escapePoint ++ ['\x22']

/-- An object in an array, without the comma and the line end, given its two values in quotes. -/
def object (kind text : Text) : Text :=
  "  \x7b\n    \"kind\": ".toList ++ kind ++ ",\n    \"text\": ".toList ++ text ++
    "\n  \x7d".toList

def array : List Text → Text
  | [] => "[]".toList
  | objects => "[\n".toList ++ Text.joined ",\n".toList objects ++ "\n]".toList

end Lexeme.Json
