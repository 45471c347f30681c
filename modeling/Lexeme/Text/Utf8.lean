import Lexeme.Text.Basic
import Lexeme.Text.Hex

/-!
UTF-8, strictly: shortest forms only, no surrogates, nothing above U+10FFFF. The reader takes one
byte at a time and keeps the character it is in the middle of. It stops at the first byte that no
text continues with, and says which bytes it gives up and why.
-/

namespace Lexeme.Text.Utf8

abbrev Bytes := List UInt8

inductive Reason
  | badStart
  | badContinuation
  | cutShort
  deriving DecidableEq

/-- The bytes given up: the position of the first one, all of them, and the reason. -/
structure Fault where
  position : Nat
  bytes : Bytes
  reason : Reason
  deriving DecidableEq

/-- A character of which bytes are owed: those read, newest first, their value, the number owed
after the next one, and the bounds of the next one. -/
structure Opened where
  taken : Bytes
  value : Nat
  owed : Nat
  low : Nat := 0x80
  high : Nat := 0xbf

/-- The character that a first byte opens. The bounds of the second byte keep out long forms,
surrogates and numbers that are no code points. -/
def Opened.ofFirst? (b : UInt8) : Option Opened :=
  let n := b.toNat
  if n < 0xc2 then none
  else if n < 0xe0 then some { taken := [b], value := n - 0xc0, owed := 0 }
  else if n = 0xe0 then some { taken := [b], value := 0, owed := 1, low := 0xa0 }
  else if n = 0xed then some { taken := [b], value := 0xd, owed := 1, high := 0x9f }
  else if n < 0xf0 then some { taken := [b], value := n - 0xe0, owed := 1 }
  else if n = 0xf0 then some { taken := [b], value := 0, owed := 2, low := 0x90 }
  else if n = 0xf4 then some { taken := [b], value := 4, owed := 2, high := 0x8f }
  else if n < 0xf4 then some { taken := [b], value := n - 0xf0, owed := 2 }
  else none

/-- An opened character is given up with all its bytes; the position is that of the next byte. -/
def Opened.fault (o : Opened) (position : Nat) (reason : Reason) : Fault :=
  ⟨position - o.taken.length, o.taken.reverse, reason⟩

/-- Reads on, inside a character or between two, from the byte at a position. -/
def decodeFrom (position : Nat) : Option Opened → Bytes → Except Fault Text
  | none, [] => .ok []
  | some o, [] => .error (o.fault position .cutShort)
  | none, b :: rest =>
    if b.toNat < 0x80 then
      (Char.ofNat b.toNat :: ·) <$> decodeFrom (position + 1) none rest
    else match Opened.ofFirst? b with
      | some o => decodeFrom (position + 1) (some o) rest
      | none => .error ⟨position, [b], .badStart⟩
  | some o, b :: rest =>
    if o.low ≤ b.toNat ∧ b.toNat ≤ o.high then
      let value := o.value * 64 + (b.toNat - 0x80)
      match o.owed with
      | 0 => (Char.ofNat value :: ·) <$> decodeFrom (position + 1) none rest
      | owed + 1 => decodeFrom (position + 1) (some ⟨b :: o.taken, value, owed, 0x80, 0xbf⟩) rest
    else .error (o.fault position .badContinuation)

def decode (bytes : Bytes) : Except Fault Text := decodeFrom 0 none bytes

def encode (s : Text) : Bytes := s.flatMap String.utf8EncodeChar

def Reason.text : Reason → Text
  | .badStart => "invalid start byte".toList
  | .badContinuation => "invalid continuation byte".toList
  | .cutShort => "unexpected end of data".toList

/-- One byte is named by its value, several by the positions they take up. -/
def Fault.text (f : Fault) : Text :=
  let bytes := match f.bytes with
    | [b] => "byte 0x".toList ++ Hex.fixed 2 b.toNat ++ " in position ".toList ++
        decimal f.position
    | bytes => "bytes in position ".toList ++ decimal f.position ++ '-' ::
        decimal (f.position + (bytes.length - 1))
  "'utf-8' codec can't decode ".toList ++ bytes ++ ": ".toList ++ f.reason.text

end Lexeme.Text.Utf8
