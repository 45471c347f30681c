import Lexeme.Text.Hex
import Lexeme.Text.Printable

/-!
Quoted text: a printable, single-line form of any text. The quote is an apostrophe unless the text
holds an apostrophe and no double quote. Printable characters stand for themselves, apart from the
quote in use and the backslash; the others are escaped, by name or by a hexadecimal number of two,
four or eight digits, the shortest that fits.
-/

namespace Lexeme.Text

namespace Quoted

def apostrophe : Char := '\x27'

def doubleQuote : Char := '\x22'

def backslash : Char := '\x5c'

def quoteFor (s : Text) : Char :=
  if s.contains apostrophe && !s.contains doubleQuote then doubleQuote else apostrophe

def numeric (n : Nat) : Text :=
  if n < 0x100 then backslash :: 'x' :: Hex.fixed 2 n
  else if n < 0x10000 then backslash :: 'u' :: Hex.fixed 4 n
  else backslash :: 'U' :: Hex.fixed 8 n

def escape (quote c : Char) : Text :=
  if c = quote ∨ c = backslash then [backslash, c]
  else if c = '\t' then [backslash, 't']
  else if c = '\n' then [backslash, 'n']
  else if c = '\r' then [backslash, 'r']
  else if isPrintable c then [c]
  else numeric c.toNat

end Quoted

def quoted (s : Text) : Text :=
  let quote := Quoted.quoteFor s
  quote :: s.flatMap (Quoted.escape quote) ++ [quote]

end Lexeme.Text
