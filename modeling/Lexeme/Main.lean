import Lexeme.Command.Run

/-!
The program. It gathers what a run depends on, the one file that the arguments name among it, and
reads the standard input only if the plan needs it. All else is the pure run. The system's runtime
hands arguments and variables over as texts already, so that there is no surrogate in them here.
-/

namespace Lexeme.Command

/-- The system's number for reading a folder as a file. -/
def folderRead : UInt32 := 21

def entryAt (path : Raw) : IO (Option Entry) := do
  let some name := path.text? | return none
  try
    let bytes ← IO.FS.readBinFile (String.ofList name)
    return some (.file bytes.toList)
  catch
    | .inappropriateType _ code _ => return if code = folderRead then some .folder else none
    | _ => return none

partial def readAll (input : IO.FS.Stream) (done : ByteArray) : IO ByteArray := do
  let block ← input.read 65536
  if block.isEmpty then return done
  readAll input (done ++ block)

def readVariable (v : Variable) : IO (Option Raw) := do
  return (← IO.getEnv (String.ofList v.name)).map fun value => Raw.ofText value.toList

def namedFile (arguments : List Raw) : Option Raw :=
  match Typed.ofArguments arguments with
  | .ok t => t.operands.head?
  | .error _ => none

def gather (arguments : List Raw) : IO Invocation := do
  let name := namedFile arguments
  let found ← match name with
    | some path => entryAt path
    | none => pure none
  let entry (path : Raw) := if name = some path then found else none
  let input ←
    if (Plan.ofArguments entry arguments).readsInput then readAll (← IO.getStdin) .empty
    else pure .empty
  let environment : Environment :=
    { format := ← readVariable .format
      strict := ← readVariable .strict
      verbose := ← readVariable .verbose }
  return { arguments, environment, input := input.toList, entry }

end Lexeme.Command

open Lexeme in
def main (arguments : List String) : IO UInt32 := do
  let invocation ← Command.gather (Raw.ofStrings arguments)
  let outcome := invocation.run
  IO.print (String.ofList outcome.stdout)
  IO.eprint (String.ofList outcome.stderr)
  return UInt32.ofNat outcome.exit.number
