import Lexeme.Command.UsageFault

/-!
The two pages that a command line can ask for in place of a scan.
-/

namespace Lexeme.Command

inductive Page
  | help
  | version
  deriving DecidableEq, Repr

def version : Text := "1.0.0".toList

def helpLines : List Text :=
  [usageLine,
   [],
   "  Print the tokens of a scripting language source.".toList,
   [],
   "  INPUT_FILE is the source to scan. Use -e to pass the source on the command".toList,
   "  line; with neither, the source is read from standard input.".toList,
   [],
   "  Examples:".toList,
   "      sclex program.src            # One token per line".toList,
   "      sclex -e \"let x = 5;\"        # Inline source".toList,
   "      sclex -f json program.src    # JSON array of tokens".toList,
   "      sclex --strict program.src   # Fail on illegal characters".toList,
   [],
   "Options:".toList,
   "  -e, --expr TEXT           Tokenize this source string instead of a file".toList,
   "  -f, --format [text|json]  Output format (default: text, or $SCRIPTLEX_FORMAT)".toList,
   "  --no-eof                  Omit the trailing EOF token".toList,
   "  --strict / --no-strict    Exit with status 1 if an illegal character is found".toList,
   "  -v, --verbose / --quiet   Verbose output (default: off, or $SCRIPTLEX_VERBOSE)".toList,
   "  --version                 Show the version and exit.".toList,
   "  --help                    Show this message and exit.".toList]

def Page.text : Page → Text
  | help => Text.joined ['\n'] helpLines ++ ['\n']
  | version => "sclex, version ".toList ++ Command.version ++ ['\n']

end Lexeme.Command
