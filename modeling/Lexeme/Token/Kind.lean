import Lexeme.Text.Basic

/-!
The kinds of token: the end of the source, a foreign character, identifiers, integers, marks with a
fixed spelling of one or two characters, and keywords. The kinds are numbered from one, in the order
in which they are listed here.
-/

namespace Lexeme

inductive Mark
  | assign | eq | notEq | bang | plus | minus | asterisk | slash | lt | gt
  | comma | semicolon | lparen | rparen | lbrace | rbrace
  deriving DecidableEq, Repr

inductive Keyword
  | fnWord | letWord | ifWord | elseWord | trueWord | falseWord | returnWord
  deriving DecidableEq, Repr

inductive Kind
  | eof
  | illegal
  | ident
  | int
  | mark (m : Mark)
  | keyword (k : Keyword)
  deriving DecidableEq, Repr

namespace Mark

def all : List Mark :=
  [assign, eq, notEq, bang, plus, minus, asterisk, slash, lt, gt, comma, semicolon, lparen, rparen,
   lbrace, rbrace]

def text : Mark → Text
  | assign => ['=']
  | eq => ['=', '=']
  | notEq => ['!', '=']
  | bang => ['!']
  | plus => ['+']
  | minus => ['-']
  | asterisk => ['*']
  | slash => ['/']
  | lt => ['<']
  | gt => ['>']
  | comma => [',']
  | semicolon => [';']
  | lparen => ['(']
  | rparen => [')']
  | lbrace => ['\x7b']
  | rbrace => ['\x7d']

def name : Mark → Text
  | assign => "ASSIGN".toList
  | eq => "EQ".toList
  | notEq => "NOT_EQ".toList
  | bang => "BANG".toList
  | plus => "PLUS".toList
  | minus => "MINUS".toList
  | asterisk => "ASTERISK".toList
  | slash => "SLASH".toList
  | lt => "LT".toList
  | gt => "GT".toList
  | comma => "COMMA".toList
  | semicolon => "SEMICOLON".toList
  | lparen => "LPAREN".toList
  | rparen => "RPAREN".toList
  | lbrace => "LBRACE".toList
  | rbrace => "RBRACE".toList

def single? (c : Char) : Option Mark := Text.find? all text [c]

def pair? (c d : Char) : Option Mark := Text.find? all text [c, d]

theorem mem_all (m : Mark) : m ∈ all := by cases m <;> decide

theorem text_injective {m n : Mark} (h : m.text = n.text) : m = n := by
  revert h
  cases m <;> cases n <;> decide

theorem single?_eq_some_iff {c : Char} {m : Mark} : single? c = some m ↔ m.text = [c] :=
  Text.find?_eq_some_iff mem_all text_injective

theorem pair?_eq_some_iff {c d : Char} {m : Mark} : pair? c d = some m ↔ m.text = [c, d] :=
  Text.find?_eq_some_iff mem_all text_injective

end Mark

namespace Keyword

def all : List Keyword := [fnWord, letWord, ifWord, elseWord, trueWord, falseWord, returnWord]

def text : Keyword → Text
  | fnWord => "fn".toList
  | letWord => "let".toList
  | ifWord => "if".toList
  | elseWord => "else".toList
  | trueWord => "true".toList
  | falseWord => "false".toList
  | returnWord => "return".toList

def name : Keyword → Text
  | fnWord => "FUNCTION".toList
  | letWord => "LET".toList
  | ifWord => "IF".toList
  | elseWord => "ELSE".toList
  | trueWord => "TRUE".toList
  | falseWord => "FALSE".toList
  | returnWord => "RETURN".toList

def ofText? (s : Text) : Option Keyword := Text.find? all text s

theorem mem_all (k : Keyword) : k ∈ all := by cases k <;> decide

theorem text_injective {k l : Keyword} (h : k.text = l.text) : k = l := by
  revert h
  cases k <;> cases l <;> decide

theorem ofText?_eq_some_iff {s : Text} {k : Keyword} : ofText? s = some k ↔ k.text = s :=
  Text.find?_eq_some_iff mem_all text_injective

end Keyword

namespace Kind

def all : List Kind :=
  [eof, illegal, ident, int] ++ Mark.all.map mark ++ Keyword.all.map keyword

def name : Kind → Text
  | eof => "EOF".toList
  | illegal => "ILLEGAL".toList
  | ident => "IDENT".toList
  | int => "INT".toList
  | mark m => m.name
  | keyword k => k.name

def ofName? (s : Text) : Option Kind := Text.find? all name s

def number (k : Kind) : Nat := all.idxOf k + 1

def ofNumber? : Nat → Option Kind
  | 0 => none
  | n + 1 => all[n]?

def endText : Text := "EOF".toList

/-- The fixed text of a kind; identifiers, integers and foreign characters have none. -/
def symbol? : Kind → Option Text
  | eof => some endText
  | mark m => some m.text
  | keyword k => some k.text
  | illegal | ident | int => none

theorem mem_all (k : Kind) : k ∈ all := by
  cases k with
  | mark m => simp [all, Mark.mem_all]
  | keyword k => simp [all, Keyword.mem_all]
  | eof | illegal | ident | int => simp [all]

theorem name_injective {k l : Kind} (h : k.name = l.name) : k = l := by
  have table : ∀ k ∈ all, ∀ l ∈ all, k.name = l.name → k = l := by decide
  exact table k (mem_all k) l (mem_all l) h

theorem ofName?_eq_some_iff {s : Text} {k : Kind} : ofName? s = some k ↔ k.name = s :=
  Text.find?_eq_some_iff mem_all name_injective

theorem mem_name {k : Kind} {c : Char} (h : c ∈ k.name) : c.isUpper = true ∨ c = '_' := by
  have table : ∀ k ∈ all, k.name.all fun c => c.isUpper ∨ c = '_' := by decide
  simpa using List.all_eq_true.1 (table k (mem_all k)) c h

end Kind
end Lexeme
