import Lexeme.Fault
import Lexeme.Token.Render

/-!
The settings of the printer of tokens, and why a value can be refused as a setting. Settings given as
flags, each of them or not, are laid over other settings.
-/

namespace Lexeme

structure Settings where
  format : Format := .text
  includeEof : Bool := true
  strict : Bool := false
  verbose : Bool := false
  deriving DecidableEq, Repr

inductive Variable
  | format
  | strict
  | verbose
  deriving DecidableEq, Repr

def Variable.name : Variable → Text
  | format => "SCRIPTLEX_FORMAT".toList
  | strict => "SCRIPTLEX_STRICT".toList
  | verbose => "SCRIPTLEX_VERBOSE".toList

inductive Refusal
  | unknownFormat (value : Raw)
  | unclearFlag (v : Variable) (value : Raw)
  deriving DecidableEq, Repr

/-- A refused format is shown as it is, a refused flag in quoted form. -/
def Refusal.notice : Refusal → Notice
  | unknownFormat value =>
    { description := Raw.ofText "unknown output format '".toList ++ value ++ Raw.ofText ['\x27']
      hint := some ("use one of: ".toList ++ Text.joined ", ".toList (Format.all.map Format.name)) }
  | unclearFlag v value =>
    { description := Raw.ofText
        ("invalid boolean value ".toList ++ value.quoted ++ " for ".toList ++ v.name)
      hint := some "use 1/0, true/false, yes/no or on/off".toList }

def Refusal.fault (r : Refusal) : Fault := .settings r.notice

/-- The format of a name in its exact spelling. -/
def Format.read (s : Raw) : Except Refusal Format :=
  match s.text?.bind Format.ofName? with
  | some f => .ok f
  | none => .error (.unknownFormat s)

namespace Settings

def truth : Bool → Text
  | true => "True".toList
  | false => "False".toList

def shown (s : Settings) : Text :=
  "DriverConfig(output_format=".toList ++ s.format.name.quoted ++
    ", include_eof=".toList ++ truth s.includeEof ++
    ", strict=".toList ++ truth s.strict ++
    ", verbose=".toList ++ truth s.verbose ++ [')']

end Settings

structure Flags where
  format : Option Format := none
  noEof : Bool := false
  strict : Option Bool := none
  verbose : Option Bool := none
  deriving DecidableEq, Repr

/-- Settings with every flag that is given in place of what was set before. -/
def Flags.over (f : Flags) (s : Settings) : Settings where
  format := f.format.getD s.format
  includeEof := s.includeEof && !f.noEof
  strict := f.strict.getD s.strict
  verbose := f.verbose.getD s.verbose

end Lexeme
