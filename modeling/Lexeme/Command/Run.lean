import Lexeme.Command.Request
import Lexeme.Settings.Environment
import Lexeme.Token.Trace

/-!
One run of the program as a function from what it is given to what it leaves: an exit code and two
output texts. The tokens are printed before a strict run fails, and nothing is printed if the source
cannot be had. The standard output takes no surrogates: if one is to be printed the run ends there,
with nothing printed. The error output takes them in an escaped form.
-/

namespace Lexeme

/-- Line ends in one form: a carriage return with a line feed, and one that stands alone, both become
a line feed. -/
def Text.withUnixLines : Text → Text
  | [] => []
  | '\r' :: '\n' :: rest => '\n' :: withUnixLines rest
  | '\r' :: rest => '\n' :: withUnixLines rest
  | c :: rest => c :: withUnixLines rest

namespace Command

structure Invocation where
  arguments : List Raw
  environment : Environment
  input : Text.Utf8.Bytes
  entry : Raw → Option Entry

structure Outcome where
  exit : ExitCode
  stdout : Text := []
  stderr : Text := []
  deriving DecidableEq

namespace Source

/-- What a source holds. Files and the input are decoded, and their line ends brought to one form; a
text from the command line is taken as it is. -/
def text (input : Text.Utf8.Bytes) : Source → Except Fault Raw
  | expr s => .ok s
  | file _ bytes => decoded bytes
  | .input => decoded input
where
  decoded (bytes : Text.Utf8.Bytes) : Except Fault Raw :=
    match Text.Utf8.decode bytes with
    | .ok s => .ok (Raw.ofText s.withUnixLines)
    | .error f => .error (.undecodable f)

def announcement : Source → Text
  | file name _ => Level.debug.line ("reading ".toList ++ (Path.tidy name).escaped)
  | _ => []

end Source

/-- The items to print: all, or all but those at the end. -/
def shownBy {α : Type} (kind : α → Kind) (s : Settings) (items : List α) : List α :=
  items.filter fun a => s.includeEof || kind a ≠ .eof

def shownTokens (s : Settings) (tokens : List Token) : List Token := shownBy Token.kind s tokens

def shownPieces (s : Settings) (pieces : List Piece) : List Piece := shownBy Piece.kind s pieces

/-- What is to be printed of a list of pieces: nothing if there is none to show as text. -/
def pieceOutput (f : Format) (pieces : List Piece) : Raw :=
  if pieces.isEmpty && f = .text then [] else Raw.printed (Piece.render f pieces)

/-- What is to be printed of a source. -/
def output (s : Settings) (source : Raw) : Raw :=
  pieceOutput s.format (shownPieces s source.pieces)

def summary (source : Raw) (pieces : List Piece) : Text :=
  Text.printed <|
    "Scanned ".toList ++ Text.decimal source.length ++ " characters: ".toList ++
      Text.decimal pieces.length ++ " tokens, ".toList ++
      Text.decimal (pieces.countP fun p => p.kind = .illegal) ++ " illegal".toList

def scanned (s : Settings) (before : Text) (source : Raw) : Outcome :=
  let pieces := source.pieces
  let log := before ++ if s.verbose then (trace source).flatMap Event.line else []
  match (output s source).written with
  | .error u =>
    let f := Fault.unwritable u
    { exit := f.exitCode, stderr := log ++ f.report s.verbose }
  | .ok stdout =>
    let stderr := log ++ if s.verbose then summary source pieces else []
    match if s.strict then Piece.check pieces else .ok pieces with
    | .ok _ => { exit := .success, stdout, stderr }
    | .error f => { exit := f.exitCode, stdout, stderr := stderr ++ f.report s.verbose }

namespace Request

/-- The outcome of a request under settings that its flags have been laid over. -/
def runWith (r : Request) (s : Settings) (input : Text.Utf8.Bytes) : Outcome :=
  let before := if s.verbose then r.source.announcement else []
  match r.source.text input with
  | .ok source => scanned s before source
  | .error f => { exit := f.exitCode, stderr := before ++ f.report s.verbose }

def run (r : Request) (e : Environment) (input : Text.Utf8.Bytes) : Outcome :=
  match e.settings with
  | .ok s => r.runWith (r.flags.over s) input
  | .error refusal =>
    { exit := refusal.fault.exitCode, stderr := refusal.fault.report false }

end Request

def UsageFault.outcome (u : UsageFault) : Outcome where
  exit := .invalidArguments
  stderr := u.report

def Invocation.plan (i : Invocation) : Plan := Plan.ofArguments i.entry i.arguments

def Invocation.run (i : Invocation) : Outcome :=
  match i.plan with
  | .refuse u => u.outcome
  | .page p => { exit := .success, stdout := p.text }
  | .scan r => r.run i.environment i.input

end Command
end Lexeme
