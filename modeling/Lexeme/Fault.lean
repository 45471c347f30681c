import Lexeme.Text.Utf8
import Lexeme.Token.Piece

/-!
Everything that can go wrong, as causes: what each one says, how it ends the program and what is
written about it on the error output. A list of tokens is read strictly if one that stands for a
foreign character is a fault; the first such token is the one reported.
-/

namespace Lexeme

/-- A description may hold what was given to the program; a hint is in words of the library's own. -/
structure Notice where
  description : Raw
  hint : Option Text := none
  deriving DecidableEq, Repr

/-- A failed access to a file: the system's message, with its number and the file where known. -/
structure FileTrouble where
  message : Text
  place : Option (Int × Text) := none
  deriving DecidableEq, Repr

inductive Fault
  | general (n : Notice)
  | settings (n : Notice)
  | illegal (t : Token) (c : Char)
  | stray (x : Surrogate)
  | notOneCharacter (length : Nat)
  | absent (f : FileTrouble)
  | denied (f : FileTrouble)
  | folder (f : FileTrouble)
  | badValue (message : Text)
  | failed (message : Text)
  | undecodable (f : Text.Utf8.Fault)
  | unwritable (u : Raw.Unwritable)
  deriving DecidableEq

inductive ExitCode
  | success
  | illegalCharacter
  | invalidArguments
  | internalError
  deriving DecidableEq, Repr

namespace ExitCode

def all : List ExitCode := [success, illegalCharacter, invalidArguments, internalError]

def name : ExitCode → Text
  | success => "SUCCESS".toList
  | illegalCharacter => "LEX_ERROR".toList
  | invalidArguments => "INVALID_ARGS".toList
  | internalError => "INTERNAL_ERROR".toList

def number : ExitCode → Nat
  | success => 0
  | illegalCharacter => 1
  | invalidArguments => 2
  | internalError => 3

end ExitCode

/-- The description, and the suggestion on a line of its own unless it is empty. -/
def Notice.text (n : Notice) : Raw :=
  Raw.ofText "error: ".toList ++ n.description ++
    match n.hint with
    | none | some [] => []
    | some hint => Raw.ofText ("\nhint: ".toList ++ hint)

def FileTrouble.text (f : FileTrouble) : Text :=
  match f.place with
  | none => f.message
  | some (number, file) =>
    "[Errno ".toList ++ (toString number).toList ++ "] ".toList ++ f.message ++ ": ".toList ++
      file.quoted

namespace Fault

/-- The fault of a token that stands for a foreign character, which is one character long. -/
def ofIllegal (t : Token) : Fault :=
  match t.text with
  | [c] => .illegal t c
  | text => .notOneCharacter text.length

/-- The fault of a piece that stands for a foreign point. -/
def ofPiece : Piece → Fault
  | .token t => ofIllegal t
  | .stray x => .stray x

/-- The notice of a foreign point, given in quotes and by its number. -/
def foreignNotice (quoted : Text) (number : Nat) : Notice where
  description := Raw.ofText ("illegal character ".toList ++ quoted ++ " (U+".toList ++
    Text.Hex.upper 4 number ++ [')'])
  hint := some "remove the character or replace it with a supported operator".toList

def illegalNotice (c : Char) : Notice := foreignNotice (Text.quoted [c]) c.toNat

def strayNotice (x : Surrogate) : Notice := foreignNotice (Raw.quoted [.surrogate x]) x.number

/-- The notice of a fault of the library's own; the others have none. -/
def notice? : Fault → Option Notice
  | general n | settings n => some n
  | illegal _ c => some (illegalNotice c)
  | stray x => some (strayNotice x)
  | _ => none

def message : Fault → Raw
  | general n | settings n => n.text
  | illegal _ c => (illegalNotice c).text
  | stray x => (strayNotice x).text
  | notOneCharacter length =>
    Raw.ofText ("ord() expected a character, but string of length ".toList ++ Text.decimal length ++
      " found".toList)
  | absent f | denied f | folder f => Raw.ofText f.text
  | badValue message | failed message => Raw.ofText message
  | undecodable f => Raw.ofText f.text
  | unwritable u => Raw.ofText u.text

def exitCode : Fault → ExitCode
  | settings _ | absent _ | denied _ => .invalidArguments
  | general _ | illegal _ _ | stray _ => .illegalCharacter
  | _ => .internalError

/-- What is written before the message of a fault that is not of the library's own. -/
def heading (f : Fault) : Text :=
  if f.notice?.isSome then []
  else if f.exitCode = .invalidArguments then "Error: ".toList
  else "Internal error: ".toList

/-- The line that stands for the steps which led to a fault. -/
def stepsLine : Text := "<traceback>\n".toList

/-- What is written on the error output. Only an internal error has steps to show. -/
def report (f : Fault) (verbose : Bool) : Text :=
  (Raw.printed (Raw.ofText f.heading ++ f.message)).escaped ++
    if verbose && f.exitCode = .internalError then stepsLine else []

end Fault

/-- The items of which none is of the illegal kind, or else the fault of the first that is. -/
def checkBy {α : Type} (kind : α → Kind) (fault : α → Fault) (items : List α) :
    Except Fault (List α) :=
  match items.find? fun a => kind a = .illegal with
  | none => .ok items
  | some a => .error (fault a)

def check (ts : List Token) : Except Fault (List Token) := checkBy Token.kind Fault.ofIllegal ts

def Piece.check (ps : List Piece) : Except Fault (List Piece) := checkBy Piece.kind Fault.ofPiece ps

end Lexeme
