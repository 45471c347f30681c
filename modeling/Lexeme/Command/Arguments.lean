import Lexeme.Command.Pages
import Lexeme.Text.Similarity

/-!
Reading the arguments of a command line into what was typed. Options and operands mix; two dashes
alone end the options, and one dash alone is an operand. A long option takes its value after an
equals sign or as the next argument, whatever that looks like. Short options cluster, and one that
takes a value takes the rest of its cluster or the next argument. What is typed last counts, but of
the two pages the one asked for first is shown. Names and values are raw, as arguments are.
-/

namespace Lexeme.Command

inductive Valued
  | expr
  | format
  deriving DecidableEq, Repr

inductive Switch
  | noEof
  | strict (on : Bool)
  | verbose (on : Bool)
  | page (p : Page)
  deriving DecidableEq, Repr

inductive Choice
  | valued (v : Valued)
  | switch (s : Switch)
  deriving DecidableEq, Repr

def longNames : List (Text × Choice) :=
  [("--expr".toList, .valued .expr), ("--format".toList, .valued .format),
   ("--no-eof".toList, .switch .noEof),
   ("--strict".toList, .switch (.strict true)), ("--no-strict".toList, .switch (.strict false)),
   ("--verbose".toList, .switch (.verbose true)), ("--quiet".toList, .switch (.verbose false)),
   ("--version".toList, .switch (.page .version)), ("--help".toList, .switch (.page .help))]

def shortNames : List (Char × Choice) :=
  [('e', .valued .expr), ('f', .valued .format), ('v', .switch (.verbose true))]

/-- What was typed; the values of options are not checked yet. -/
structure Typed where
  expr : Option Raw := none
  format : Option Raw := none
  noEof : Bool := false
  strict : Option Bool := none
  verbose : Option Bool := none
  page : Option Page := none
  operands : List Raw := []
  deriving DecidableEq, Repr

/-- An option, by the name it was typed with, whose value is the next argument. -/
structure Awaited where
  valued : Valued
  name : Raw

namespace Typed

def put (t : Typed) : Valued → Raw → Typed
  | .expr, value => { t with expr := some value }
  | .format, value => { t with format := some value }

def turn (t : Typed) : Switch → Typed
  | .noEof => { t with noEof := true }
  | .strict on => { t with strict := some on }
  | .verbose on => { t with verbose := some on }
  | .page p => { t with page := t.page.or (some p) }

def addOperands (t : Typed) (names : List Raw) : Typed :=
  { t with operands := t.operands ++ names }

/-- A long option; what follows its first equals sign is its value. -/
def readLong (t : Typed) (argument : Raw) : Except UsageFault (Typed × Option Awaited) :=
  let name := argument.takeWhile (· != .char '=')
  let attached := (argument.dropWhile (· != .char '=')).tail?
  match (Raw.text? name).bind (longNames.lookup ·), attached with
  | none, _ => .error (.unknownOption name (Text.closeMatches (longNames.map (·.1)) name))
  | some (.valued v), none => .ok (t, some ⟨v, name⟩)
  | some (.valued v), some value => .ok (t.put v value, none)
  | some (.switch s), none => .ok (t.turn s, none)
  | some (.switch _), some _ => .error (.unwantedValue name)

/-- The letters of a cluster of short options. -/
def readCluster (t : Typed) : Raw → Except UsageFault (Typed × Option Awaited)
  | [] => .ok (t, none)
  | p :: rest =>
    match p.char?.bind (shortNames.lookup ·) with
    | none => .error (.unknownOption [.char '-', p] [])
    | some (.switch s) => readCluster (t.turn s) rest
    | some (.valued v) =>
      if rest.isEmpty then .ok (t, some ⟨v, [.char '-', p]⟩) else .ok (t.put v rest, none)

/-- One argument that is neither the value of an option nor the end of the options. -/
def readArgument (t : Typed) (argument : Raw) : Except UsageFault (Typed × Option Awaited) :=
  match argument with
  | .char '-' :: .char '-' :: _ => t.readLong argument
  | .char '-' :: p :: rest => t.readCluster (p :: rest)
  | _ => .ok (t.addOperands [argument], none)

def read (t : Typed) : Option Awaited → List Raw → Except UsageFault Typed
  | none, [] => .ok t
  | some a, [] => .error (.missingValue a.name)
  | some a, value :: rest => read (t.put a.valued value) none rest
  | none, argument :: rest =>
    if argument = [.char '-', .char '-'] then .ok (t.addOperands rest)
    else match t.readArgument argument with
      | .error u => .error u
      | .ok (t, awaited) => read t awaited rest

def ofArguments (arguments : List Raw) : Except UsageFault Typed := read {} none arguments

end Typed
end Lexeme.Command
