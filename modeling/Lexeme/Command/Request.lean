import Lexeme.Command.Arguments
import Lexeme.Command.Folder
import Lexeme.Settings.Basic

/-!
What a command line asks for once its values are checked: a page, or a source with flags. A page is
given before any value is checked. The format is checked before the file, the file before the number
of operands, and the choice between two sources comes last.
-/

namespace Lexeme.Command

inductive Source
  | expr (s : Raw)
  | file (name : Raw) (bytes : Text.Utf8.Bytes)
  | input
  deriving DecidableEq

structure Request where
  source : Source
  flags : Flags

/-- One spelling of letters of different case; the long s counts as an s. -/
def foldCase (c : Char) : Char := if c = Char.ofNat 0x17f then 's' else c.toLower

/-- No name of a format has a surrogate in it. -/
def formatOf? (value : Raw) : Option Format :=
  value.text?.bind fun s => Format.ofName? (s.map foldCase)

namespace Typed

def checkFormat (t : Typed) : Except UsageFault (Option Format) :=
  match t.format with
  | none => .ok none
  | some value =>
    match formatOf? value with
    | some f => .ok (some f)
    | none => .error (.unknownFormat value)

def checkFile (t : Typed) (entry : Raw → Option Entry) : Except UsageFault (Option Source) :=
  match t.operands.head? with
  | none => .ok none
  | some name =>
    match entry name with
    | some (.file bytes) => .ok (some (.file name bytes))
    | some .folder => .error (.isFolder name)
    | none => .error (.noSuchFile name)

def checkOperands (t : Typed) : Except UsageFault Unit :=
  match t.operands.tail with
  | [] => .ok ()
  | extra => .error (.extraArguments extra)

def chooseSource (t : Typed) : Option Source → Except UsageFault Source
  | none => .ok (t.expr.elim .input .expr)
  | some file => if t.expr.isSome then .error .twoSources else .ok file

def request (t : Typed) (entry : Raw → Option Entry) : Except UsageFault Request := do
  let format ← t.checkFormat
  let file ← t.checkFile entry
  t.checkOperands
  let source ← t.chooseSource file
  return ⟨source, { format, noEof := t.noEof, strict := t.strict, verbose := t.verbose }⟩

end Typed

inductive Plan
  | refuse (u : UsageFault)
  | page (p : Page)
  | scan (r : Request)

namespace Plan

def ofTyped (entry : Raw → Option Entry) (t : Typed) : Plan :=
  match t.page with
  | some p => page p
  | none => match t.request entry with
    | .ok r => scan r
    | .error u => refuse u

def ofArguments (entry : Raw → Option Entry) (arguments : List Raw) : Plan :=
  match Typed.ofArguments arguments with
  | .ok t => ofTyped entry t
  | .error u => refuse u

/-- The plan needs the standard input; no other plan touches it. -/
def readsInput : Plan → Bool
  | scan r => r.source = .input
  | _ => false

end Plan
end Lexeme.Command
