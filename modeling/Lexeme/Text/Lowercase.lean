import Lexeme.Text.Basic
import Lexeme.Text.Cased
import Lexeme.Text.CaseRuns

/-!
Lower case for all scripts. Every letter has one lower-case form, apart from two: a capital I with a
dot above becomes a plain i and a combining dot, and a capital sigma takes its final form at the end
of a word, that is, after a letter and not before one.
-/

namespace Lexeme.Text

namespace Lowercase

def capitalSigma : Char := Char.ofNat 0x3a3

def dottedCapitalI : Char := Char.ofNat 0x130

def plain (c : Char) : Text :=
  if c.toNat < 0x80 then [c.toLower]
  else if c = dottedCapitalI then ['i', Char.ofNat 0x307]
  else match CaseRun.all.find? (·.contains c.toNat) with
    | some r => [Char.ofNat (c.toNat + r.shift).toNat]
    | none => [c]

/-- A letter comes next, once the characters that are passed over are left out. -/
def letterAhead : Text → Bool
  | [] => false
  | c :: rest => if isCaseIgnorable c then letterAhead rest else isCased c

/-- The lower-case form of a text, given whether a letter stands right before it. -/
def after (letterBefore : Bool) : Text → Text
  | [] => []
  | c :: rest =>
    let form :=
      if c = capitalSigma then
        [Char.ofNat (if letterBefore && !letterAhead rest then 0x3c2 else 0x3c3)]
      else plain c
    form ++ after (if isCaseIgnorable c then letterBefore else isCased c) rest

end Lowercase

def lowercase (s : Text) : Text := Lowercase.after false s

end Lexeme.Text
