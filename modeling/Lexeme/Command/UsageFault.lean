import Lexeme.Fault

/-!
What can be wrong with a command line, what is said about it, and whether a reminder of the usage
comes first. Arguments that are named among others are not quoted, so that a surrogate in one of them
comes as far as to the error output, which writes its number.
-/

namespace Lexeme.Command

inductive UsageFault
  | missingValue (name : Raw)
  | unwantedValue (name : Raw)
  | unknownOption (name : Raw) (close : List Text)
  | unknownFormat (value : Raw)
  | noSuchFile (name : Raw)
  | isFolder (name : Raw)
  | extraArguments (names : List Raw)
  | twoSources
  deriving DecidableEq, Repr

def usageLine : Text := "Usage: sclex [OPTIONS] [INPUT_FILE]".toList

namespace UsageFault

/-- Similar options are proposed as a question. -/
def proposal : List Text → Text
  | [] => []
  | [name] => " Did you mean ".toList ++ name.quoted ++ ['?']
  | names =>
    " (Did you mean one of: ".toList ++ Text.joined ", ".toList (names.map Text.quoted) ++
      "?)".toList

def message : UsageFault → Raw
  | missingValue name =>
    Raw.ofText ("Option ".toList ++ name.quoted ++ " requires an argument.".toList)
  | unwantedValue name =>
    Raw.ofText ("Option ".toList ++ name.quoted ++ " does not take a value.".toList)
  | unknownOption name close =>
    Raw.ofText ("No such option ".toList ++ name.quoted ++ ['.'] ++ proposal close)
  | unknownFormat value =>
    Raw.ofText ("Invalid value for '-f' / '--format': ".toList ++ value.quoted ++
      " is not one of 'text', 'json'.".toList)
  | noSuchFile name =>
    Raw.ofText ("Invalid value for '[INPUT_FILE]': File ".toList ++ name.quoted ++
      " does not exist.".toList)
  | isFolder name =>
    Raw.ofText ("Invalid value for '[INPUT_FILE]': File ".toList ++ name.quoted ++
      " is a directory.".toList)
  | extraArguments names =>
    Raw.ofText ("Got unexpected extra argument".toList ++
      (if names.length = 1 then [] else ['s']) ++ " (".toList) ++
      Text.joined (Raw.ofText [' ']) names ++ Raw.ofText [')']
  | twoSources => Raw.ofText "give either INPUT_FILE or --expr, not both".toList

/-- A fault in how an option takes its value is reported without the reminder. -/
def reminds : UsageFault → Bool
  | missingValue _ | unwantedValue _ => false
  | _ => true

def reminder : Text := usageLine ++ "\nTry 'sclex --help' for help.\n\n".toList

def report (u : UsageFault) : Text :=
  (if u.reminds then reminder else []) ++
    (Raw.printed (Raw.ofText "Error: ".toList ++ u.message)).escaped

end UsageFault
end Lexeme.Command
