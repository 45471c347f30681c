import Lexeme.Text.Raw
import Lexeme.Text.Utf8

/-!
Paths, and a working folder that holds files and empty folders, with what a path leads to from it.
Outside the working folder only the way up is known. A path has a greatest length in bytes, the parts
that lead nowhere counted, and it has bytes only if its surrogates stand for some. A path is shown in
a tidy form.
-/

namespace Lexeme.Command

namespace Path

def slash : Point := .char '/'

def dot : Point := .char '.'

def isRooted (path : Raw) : Bool := path.head? = some slash

/-- The parts of a path that lead somewhere: empty ones and single dots stay where they are. -/
def steps (path : Raw) : List Raw :=
  (path.splitOn slash).filter fun part => part ≠ [] && part ≠ [dot]

/-- What a tidy path starts with. Two slashes differ from one, and from three or more. -/
def root (path : Raw) : Raw :=
  match (path.takeWhile (· = slash)).length with
  | 0 => []
  | 2 => [slash, slash]
  | _ => [slash]

/-- A path without the parts that lead nowhere. A step up is kept. -/
def tidy (path : Raw) : Raw :=
  match root path ++ Text.joined [slash] (steps path) with
  | [] => [dot]
  | shown => shown

/-- The bytes of a point: those of a character, and the one byte that a surrogate from U+DC80 to
U+DCFF stands for. -/
def pointBytes? : Point → Option Text.Utf8.Bytes
  | .char c => some (String.utf8EncodeChar c)
  | .surrogate x =>
    if 0xdc80 ≤ x.number ∧ x.number ≤ 0xdcff then some [UInt8.ofNat (x.number - 0xdc00)] else none

def bytes? (path : Raw) : Option Text.Utf8.Bytes := (path.mapM pointBytes?).map List.flatten

def limit : Nat := 4095

def isUsable (path : Raw) : Bool :=
  path ≠ [] && (bytes? path).any fun bytes => bytes.length ≤ limit

end Path

inductive Entry
  | file (bytes : Text.Utf8.Bytes)
  | folder
  deriving DecidableEq

abbrev Folder := List (Raw × Entry)

/-- Where a path has led so far: out of the working folder, into it, or to an entry of it. -/
inductive Place
  | outside
  | here
  | entry (e : Entry)

namespace Place

def parent : Place → Place
  | entry _ => here
  | here | outside => outside

/-- One part of a path further on. From a file no part leads anywhere, not even an empty one. -/
def step (folder : Folder) (part : Raw) : Place → Option Place
  | entry (.file _) => none
  | place =>
    if part = [] ∨ part = [Path.dot] then some place
    else if part = [Path.dot, Path.dot] then some place.parent
    else match place with
      | here => (folder.lookup part).map entry
      | _ => none

def reached : Place → Entry
  | entry e => e
  | here | outside => .folder

end Place

/-- What a path leads to from the working folder. The empty path leads nowhere, and so does one that
is too long or has no bytes, whatever its parts. -/
def Folder.lookUp (folder : Folder) (path : Raw) : Option Entry :=
  if Path.isUsable path then
    let start := if Path.isRooted path then Place.outside else Place.here
    ((path.splitOn Path.slash).foldlM (fun place part => Place.step folder part place) start).map
      Place.reached
  else none

end Lexeme.Command
