import Lexeme.Command.Arguments
import Lexeme.Command.Folder
import Lexeme.Command.Pages
import Lexeme.Command.Request
import Lexeme.Command.Run
import Lexeme.Command.UsageFault
import Lexeme.Fault
import Lexeme.Json.Quoted
import Lexeme.Json.Read
import Lexeme.Main
import Lexeme.Proofs.Account
import Lexeme.Proofs.Advance
import Lexeme.Proofs.Arguments
import Lexeme.Proofs.CharClass
import Lexeme.Proofs.Cleaning
import Lexeme.Proofs.Decoding
import Lexeme.Proofs.EndToken
import Lexeme.Proofs.ExitCode
import Lexeme.Proofs.Foreign
import Lexeme.Proofs.FormatNames
import Lexeme.Proofs.Language
import Lexeme.Proofs.Notices
import Lexeme.Proofs.Outcome
import Lexeme.Proofs.Overlay
import Lexeme.Proofs.Pieces
import Lexeme.Proofs.Printing
import Lexeme.Proofs.ReadBack
import Lexeme.Proofs.Reading
import Lexeme.Proofs.RefusedFormat
import Lexeme.Proofs.Reports
import Lexeme.Proofs.Resuming
import Lexeme.Proofs.Routes
import Lexeme.Proofs.Rows
import Lexeme.Proofs.Running
import Lexeme.Proofs.Seam
import Lexeme.Proofs.Sharing
import Lexeme.Proofs.Shown
import Lexeme.Proofs.Span
import Lexeme.Proofs.Spelling
import Lexeme.Proofs.Stepping
import Lexeme.Proofs.Termination
import Lexeme.Proofs.TokenText
import Lexeme.Proofs.Unquoting
import Lexeme.Proofs.Variables
import Lexeme.Settings.Basic
import Lexeme.Settings.Environment
import Lexeme.Text.Basic
import Lexeme.Text.CaseRuns
import Lexeme.Text.Cased
import Lexeme.Text.ControlSequence
import Lexeme.Text.Hex
import Lexeme.Text.Lowercase
import Lexeme.Text.Printable
import Lexeme.Text.Quoted
import Lexeme.Text.Raw
import Lexeme.Text.Similarity
import Lexeme.Text.Utf8
import Lexeme.Token.Basic
import Lexeme.Token.Cursor
import Lexeme.Token.Grammar
import Lexeme.Token.Head
import Lexeme.Token.Kind
import Lexeme.Token.Piece
import Lexeme.Token.Render
import Lexeme.Token.Scan
import Lexeme.Token.Session
import Lexeme.Token.Trace
