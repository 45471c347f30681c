import Lexeme.Settings.Basic
import Lexeme.Text.Lowercase

/-!
Settings from environment variables. A flag is read without regard to case and to blanks around it;
a format without regard to case only. The flags are read before the format, so that of several bad
variables a flag is the one reported. Blank is meant in the wide sense here, with the blanks of every
script and the separators among the control characters; the scanner's own white space is narrower.
A surrogate is no blank, has no case and tells nothing about the letters on its sides.
-/

namespace Lexeme

namespace Text

def isBlank (c : Char) : Bool :=
  let n := c.toNat
  (0x09 ≤ n && n ≤ 0x0d) || (0x1c ≤ n && n ≤ 0x20) || n == 0x85 || n == 0xa0 || n == 0x1680 ||
    (0x2000 ≤ n && n ≤ 0x200a) || n == 0x2028 || n == 0x2029 || n == 0x202f || n == 0x205f ||
    n == 0x3000

/-- What is left without what is dropped at both ends. -/
def trimBy {α : Type} (drops : α → Bool) (s : List α) : List α :=
  ((s.dropWhile drops).reverse.dropWhile drops).reverse

def trim (s : Text) : Text := trimBy isBlank s

theorem trim_of_blank {s : Text} (h : ∀ c ∈ s, isBlank c = true) : trim s = [] := by
  have : s.dropWhile isBlank = [] := by
    induction s with
    | nil => rfl
    | cons c s ih => simp_all
  simp [trim, trimBy, this]

end Text

def Point.isBlank : Point → Bool
  | char c => Text.isBlank c
  | surrogate _ => false

namespace Raw

def trim (s : Raw) : Raw := Text.trimBy Point.isBlank s

def lowercase (s : Raw) : Raw := s.onStretches Text.lowercase

end Raw

structure Environment where
  format : Option Raw := none
  strict : Option Raw := none
  verbose : Option Raw := none
  deriving DecidableEq, Repr

namespace Flag

def yes : List Raw := Raw.ofStrings ["1", "true", "yes", "on"]

def no : List Raw := Raw.ofStrings ["0", "false", "no", "off", ""]

/-- The value of a flag as it is compared and shown. -/
def canonical (value : Raw) : Raw := value.trim.lowercase

def ofCanonical? (value : Raw) : Option Bool :=
  if value ∈ yes then some true else if value ∈ no then some false else none

/-- A flag that is not set is off. -/
def read (v : Variable) : Option Raw → Except Refusal Bool
  | none => .ok false
  | some value =>
    match ofCanonical? (canonical value) with
    | some b => .ok b
    | none => .error (.unclearFlag v (canonical value))

end Flag

namespace Environment

/-- The name of the format that a variable asks for; an empty one asks for none. -/
def formatName : Option Raw → Raw
  | none | some [] => Raw.ofText Format.text.name
  | some value => value.lowercase

def settings (e : Environment) : Except Refusal Settings := do
  let strict ← Flag.read .strict e.strict
  let verbose ← Flag.read .verbose e.verbose
  let format ← Format.read (formatName e.format)
  return { format, strict, verbose }

section Binding

variable {α β : Type} {x : Except Refusal α} {k : α → Except Refusal β}

theorem bind_eq_ok_iff {b : β} : (x >>= k) = .ok b ↔ ∃ a, x = .ok a ∧ k a = .ok b := by
  cases x <;> simp [bind, Except.bind]

theorem bind_eq_error_iff {r : Refusal} :
    (x >>= k) = .error r ↔ x = .error r ∨ ∃ a, x = .ok a ∧ k a = .error r := by
  cases x <;> simp [bind, Except.bind]

end Binding

theorem includeEof_of_settings {v : Environment} {e : Settings} (h : v.settings = .ok e) :
    e.includeEof = true := by
  obtain ⟨_, -, h⟩ := bind_eq_ok_iff.1 h
  obtain ⟨_, -, h⟩ := bind_eq_ok_iff.1 h
  obtain ⟨_, -, h⟩ := bind_eq_ok_iff.1 h
  obtain rfl := Except.ok.inj h
  rfl

end Environment
end Lexeme
