import Mathlib.Data.List.Basic
import Lexeme.Proofs.Reading
import Lexeme.Token.Basic

/-!
Quoted text is read back as the text that it was made from. A reader takes one character at a time:
one that stands for itself, or a backslash with what it announces. No escape starts with the quote in
use, so the first quote that is met between two characters closes the text, and the text after it
does not matter, by `unquoted?_quoted`. The printed form of a token is read back from that, and it
holds printable characters only. The main statement is `shown_identifies_token`.
-/

namespace Lexeme

namespace Text

namespace Quoted

/-- How many digits follow a letter that announces a number. -/
def digitsAfter? (c : Char) : Option Nat :=
  if c = 'x' then some 2 else if c = 'u' then some 4 else if c = 'U' then some 8 else none

/-- What a character after a backslash stands for if it announces no number. -/
def named (c : Char) : Char :=
  if c = 't' then '\t' else if c = 'n' then '\n' else if c = 'r' then '\r' else c

/-- The character that the text after a backslash starts with, and what follows it. -/
def readEscaped? : Text → Option (Char × Text)
  | [] => none
  | c :: rest =>
    match digitsAfter? c with
    | some width => (Hex.value? (rest.take width)).map fun n => (Char.ofNat n, rest.drop width)
    | none => some (named c, rest)

/-- The character that the inside of a quoted text starts with, and what follows it. -/
def readChar? : Text → Option (Char × Text)
  | [] => none
  | c :: rest => if c = backslash then readEscaped? rest else some (c, rest)

theorem readEscaped?_length_lt {s : Text} {p : Char × Text} (h : readEscaped? s = some p) :
    p.2.length < s.length := by
  cases s with
  | nil => simp [readEscaped?] at h
  | cons c rest =>
    rw [readEscaped?] at h
    split at h
    · obtain ⟨n, -, rfl⟩ := Option.map_eq_some_iff.1 h
      simp only [List.length_drop, List.length_cons]
      omega
    · obtain rfl := Option.some.inj h
      simp

theorem readChar?_length_lt {s : Text} {p : Char × Text} (h : readChar? s = some p) :
    p.2.length < s.length := by
  cases s with
  | nil => simp [readChar?] at h
  | cons c rest =>
    rw [readChar?] at h
    split at h
    · exact Nat.lt_succ_of_lt (readEscaped?_length_lt h)
    · obtain rfl := Option.some.inj h
      simp

/-- The text up to the quote that closes it, and what follows the quote. -/
def readTo? (quote : Char) (s : Text) : Option (Text × Text) :=
  if s.head? = some quote then some ([], s.tail)
  else match _h : readChar? s with
    | none => none
    | some p => (readTo? quote p.2).map fun q => (p.1 :: q.1, q.2)
termination_by s.length
decreasing_by exact readChar?_length_lt _h

theorem readTo?_quote (quote : Char) (rest : Text) :
    readTo? quote (quote :: rest) = some ([], rest) := by
  rw [readTo?, List.head?_cons, if_pos rfl, List.tail_cons]

theorem readTo?_of_readChar? {quote c : Char} {s rest : Text} (hq : s.head? ≠ some quote)
    (h : readChar? s = some (c, rest)) :
    readTo? quote s = (readTo? quote rest).map fun q => (c :: q.1, q.2) := by
  rw [readTo?, if_neg hq]
  split
  · next hn => simp [hn] at h
  · next p hp =>
    obtain rfl : p = (c, rest) := Option.some.inj (hp.symm.trans h)
    rfl

end Quoted

/-- The text that a quoted text stands for, and what follows it. -/
def unquoted? : Text → Option (Text × Text)
  | [] => none
  | quote :: rest => Quoted.readTo? quote rest

namespace Quoted

def IsQuote (quote : Char) : Prop := quote = apostrophe ∨ quote = doubleQuote

theorem isQuote_quoteFor (s : Text) : IsQuote (quoteFor s) := by
  rw [quoteFor]
  split
  · exact .inr rfl
  · exact .inl rfl

variable {quote c : Char}

/-- The shapes of an escape: a backslash before the character itself, or before the letter of its
name, the character as it is, or a backslash before its number. -/
theorem escape_cases (hq : IsQuote quote) (c : Char) :
    (∃ e, escape quote c = [backslash, e] ∧ digitsAfter? e = none ∧ named e = c ∧
      isPrintable e = true) ∨
    (escape quote c = [c] ∧ c ≠ quote ∧ c ≠ backslash ∧ isPrintable c = true) ∨
    ∃ e width, escape quote c = backslash :: e :: Hex.fixed width c.toNat ∧
      digitsAfter? e = some width ∧ isPrintable e = true ∧ c.toNat < Nat.pow 16 width := by
  have hc : c.toNat < 0x110000 := by
    have hv : c.toNat < 0xd800 ∨ (0xdfff < c.toNat ∧ c.toNat < 0x110000) := c.valid
    omega
  unfold escape numeric
  split
  · next h =>
    left
    refine ⟨c, rfl, ?_⟩
    rcases h with rfl | rfl
    · rcases hq with rfl | rfl <;> decide
    · decide
  next hn =>
  rw [not_or] at hn
  split
  · next h =>
    subst h
    exact .inl ⟨'t', rfl, by decide⟩
  split
  · next h =>
    subst h
    exact .inl ⟨'n', rfl, by decide⟩
  split
  · next h =>
    subst h
    exact .inl ⟨'r', rfl, by decide⟩
  split
  · next hp => exact .inr (.inl ⟨rfl, hn.1, hn.2, hp⟩)
  · right
    right
    split
    · next h => exact ⟨'x', 2, rfl, rfl, by decide, h⟩
    split
    · next h => exact ⟨'u', 4, rfl, rfl, by decide, h⟩
    · exact ⟨'U', 8, rfl, rfl, by decide, hc.trans (by decide)⟩

section Reading

theorem readEscaped?_numeric {e : Char} {width : Nat} (he : digitsAfter? e = some width)
    (hc : c.toNat < Nat.pow 16 width) (rest : Text) :
    readEscaped? (e :: (Hex.fixed width c.toNat ++ rest)) = some (c, rest) := by
  have hl := Hex.length_fixed width c.toNat
  have hv : Hex.value? (Hex.fixed width c.toNat) = some c.toNat := by
    rw [Hex.value?_fixed, Nat.mod_eq_of_lt hc]
  rw [readEscaped?, he]
  simp only [List.take_left' hl, List.drop_left' hl, hv, Option.map_some, Char.ofNat_toNat]

theorem readChar?_escape (hq : IsQuote quote) (c : Char) (rest : Text) :
    readChar? (escape quote c ++ rest) = some (c, rest) := by
  rcases escape_cases hq c with ⟨e, h, he, hn, -⟩ | ⟨h, -, hb, -⟩ | ⟨e, width, h, he, -, hc⟩
  · rw [h, List.cons_append, readChar?, if_pos rfl, List.singleton_append, readEscaped?, he, hn]
  · rw [h, List.singleton_append, readChar?, if_neg hb]
  · rw [h, List.cons_append, readChar?, if_pos rfl, List.cons_append]
    exact readEscaped?_numeric he hc rest

theorem head?_escape_ne (hq : IsQuote quote) (c : Char) (rest : Text) :
    (escape quote c ++ rest).head? ≠ some quote := by
  have hb : backslash ≠ quote := by
    rcases hq with rfl | rfl <;> decide
  rcases escape_cases hq c with ⟨e, h, -⟩ | ⟨h, hc, -⟩ | ⟨e, width, h, -⟩
  · simp [h, hb]
  · simp [h, hc]
  · simp [h, hb]

theorem readTo?_escaped (hq : IsQuote quote) (s rest : Text) :
    readTo? quote (s.flatMap (escape quote) ++ quote :: rest) = some (s, rest) := by
  induction s with
  | nil => exact readTo?_quote quote rest
  | cons c s ih =>
    rw [List.flatMap_cons, List.append_assoc,
      readTo?_of_readChar? (head?_escape_ne hq c _) (readChar?_escape hq c _), ih, Option.map_some]

end Reading

theorem isPrintable_of_mem_fixed {width n : Nat} {d : Char} (h : d ∈ Hex.fixed width n) :
    isPrintable d = true := by
  obtain ⟨k, hk, rfl⟩ := Hex.exists_of_mem_fixed h
  have table : ∀ k < 16, isPrintable (Nat.digitChar k) = true := by decide
  exact table k hk

theorem isPrintable_of_mem_escape (hq : IsQuote quote) {d : Char} (h : d ∈ escape quote c) :
    isPrintable d = true := by
  have hb : isPrintable backslash = true := by decide
  rcases escape_cases hq c with ⟨e, he, -, -, hp⟩ | ⟨he, -, -, hp⟩ | ⟨e, width, he, -, hp, -⟩
  · rw [he] at h
    obtain rfl | rfl : d = backslash ∨ d = e := by simpa using h
    · exact hb
    · exact hp
  · rw [he] at h
    rw [List.mem_singleton.1 h]
    exact hp
  · rw [he] at h
    obtain rfl | rfl | h : d = backslash ∨ d = e ∨ d ∈ Hex.fixed width c.toNat := by simpa using h
    · exact hb
    · exact hp
    · exact isPrintable_of_mem_fixed h

end Quoted

theorem unquoted?_quoted (s rest : Text) : unquoted? (quoted s ++ rest) = some (s, rest) := by
  have h := Quoted.readTo?_escaped (Quoted.isQuote_quoteFor s) s rest
  simpa [quoted, unquoted?] using h

theorem isPrintable_of_mem_quoted {s : Text} {c : Char} (h : c ∈ quoted s) :
    isPrintable c = true := by
  have hq := Quoted.isQuote_quoteFor s
  have hp : isPrintable (Quoted.quoteFor s) = true := by
    rcases hq with h | h <;> rw [h] <;> decide
  simp only [quoted, List.cons_append, List.mem_cons, List.mem_append, List.not_mem_nil, or_false]
    at h
  rcases h with rfl | h | rfl
  · exact hp
  · obtain ⟨d, -, hd⟩ := List.mem_flatMap.1 h
    exact Quoted.isPrintable_of_mem_escape hq hd
  · exact hp

theorem toNat_of_isPrintable {c : Char} (h : isPrintable c = true) :
    0x20 ≤ c.toNat ∧ c.toNat ≠ 0x7f := by
  constructor
  · by_contra hn
    rw [isPrintable, if_pos (by omega), decide_eq_true_eq] at h
    omega
  · intro hc
    rw [isPrintable, hc] at h
    exact absurd h (by decide)

end Text

namespace Token

/-- The token that a printed form stands for: a kind by its name, and a quoted text. -/
def ofShown? (s : Text) : Option Token := do
  let inner ← s.dropPrefix? "Token(".toList
  let kind ← Kind.ofName? (inner.takeWhile (· ≠ ','))
  let tail ← (inner.dropWhile (· ≠ ',')).dropPrefix? ", ".toList
  let p ← Text.unquoted? tail
  if p.2 = ")".toList then some ⟨kind, p.1⟩ else none

theorem shown_eq (t : Token) :
    t.shown = "Token(".toList ++ (t.kind.name ++ (", ".toList ++ (t.text.quoted ++ ")".toList))) := by
  -- Its equation would have the words of the form evaluated.
  delta shown
  simp only [List.append_assoc]

theorem ofShown?_shown (t : Token) : ofShown? t.shown = some t := by
  have hn : ∀ c ∈ t.kind.name, decide (c ≠ ',') = true := by
    intro c hc
    apply decide_eq_true
    rintro rfl
    exact absurd (Kind.mem_name hc) (by decide)
  have hc : ∀ c, (", ".toList ++ (t.text.quoted ++ ")".toList)).head? = some c →
      decide (c ≠ ',') = false := by
    simp
  have hk : Kind.ofName? t.kind.name = some t.kind := Kind.ofName?_eq_some_iff.2 rfl
  rw [shown_eq, ofShown?, List.dropPrefix?_append_of_beq _ (beq_self_eq_true _)]
  simp only [Option.bind_eq_bind, Option.bind_some, Text.takeWhile_append hn hc,
    Text.dropWhile_append hn hc, hk, List.dropPrefix?_append_of_beq _ (beq_self_eq_true _),
    Text.unquoted?_quoted, if_true]

theorem isPrintable_of_mem_shown {t : Token} {c : Char} (h : c ∈ t.shown) :
    Text.isPrintable c = true := by
  have name : ∀ k ∈ Kind.all, k.name.all Text.isPrintable = true := by decide
  have opening : "Token(".toList.all Text.isPrintable = true := by decide
  have comma : ", ".toList.all Text.isPrintable = true := by decide
  have closing : ")".toList.all Text.isPrintable = true := by decide
  rw [shown_eq] at h
  simp only [List.mem_append] at h
  rcases h with h | h | h | h | h
  · exact List.all_eq_true.1 opening c h
  · exact List.all_eq_true.1 (name t.kind (Kind.mem_all t.kind)) c h
  · exact List.all_eq_true.1 comma c h
  · exact Text.isPrintable_of_mem_quoted h
  · exact List.all_eq_true.1 closing c h

theorem shown_identifies_token :
    (∀ t : Token, ofShown? t.shown = some t) ∧
    (∀ t u : Token, t.shown = u.shown ↔ t = u) ∧
    ∀ t : Token, ∀ c ∈ t.shown, Text.isPrintable c = true ∧ 0x20 ≤ c.toNat ∧ c.toNat ≠ 0x7f := by
  refine ⟨ofShown?_shown, ?_, ?_⟩
  · intro t u
    constructor
    · intro h
      have ht := ofShown?_shown t
      rw [h, ofShown?_shown u] at ht
      exact (Option.some.inj ht).symm
    · intro h
      rw [h]
  · intro t c hc
    have hp := isPrintable_of_mem_shown hc
    exact ⟨hp, Text.toNat_of_isPrintable hp⟩

/-- An escape character is told apart from the four characters that its escape is made of, and a text
that holds both quotes is read back. -/
theorem shown_of_lookalikes :
    let escape : Token := ⟨.illegal, ['\x1b']⟩
    let spelled : Token := ⟨.illegal, "\\x1b".toList⟩
    let quotes : Token := ⟨.illegal, ['\x27', '\x22', '\\']⟩
    escape.shown = "Token(ILLEGAL, '\\x1b')".toList ∧ escape.shown ≠ spelled.shown ∧
    ('\\' ∈ escape.shown ∧ Text.isPrintable '\\' = true) ∧ '\x1b' ∉ escape.shown ∧
    quotes.shown = "Token(ILLEGAL, '\\'\"\\\\')".toList ∧ ofShown? quotes.shown = some quotes := by
  intro escape spelled quotes
  obtain ⟨hr, hi, hp⟩ := shown_identifies_token
  have hs : escape.shown = "Token(ILLEGAL, '\\x1b')".toList := by decide
  have hb : '\\' ∈ escape.shown := by decide
  refine ⟨hs, ?_, ⟨hb, (hp escape '\\' hb).1⟩, ?_, by decide, hr quotes⟩
  · intro h
    exact absurd ((hi escape spelled).1 h) (by decide)
  · intro h
    exact absurd (hp escape '\x1b' h).1 (by decide)

end Token

end Lexeme
