import Lexeme.Token.Grammar

/-!
The classes of characters. Every character is of exactly one class: a word character, a digit, white
space, a character of marks or a foreign one. The characters of a well-formed token are all of the
class that its kind has, and none of them is white space, so the class of a single character of a
token says what sort of token it belongs to.
-/

namespace Lexeme

inductive CharClass
  | word | digit | space | mark | foreign
  deriving DecidableEq, Repr

/-- The classes exclude one another, so the order of the tests does not matter. -/
def CharClass.of (c : Char) : CharClass :=
  if isWordChar c then .word
  else if c.isDigit then .digit
  else if isSpace c then .space
  else if (Mark.single? c).isSome then .mark
  else .foreign

def Kind.charClass : Kind → CharClass
  | .eof | .ident | .keyword _ => .word
  | .int => .digit
  | .mark _ => .mark
  | .illegal => .foreign

namespace CharClass

theorem isWordChar_of_isDigit {c : Char} (h : c.isDigit = true) : isWordChar c = false := by
  cases hw : isWordChar c with
  | false => rfl
  | true =>
    simp only [isWordChar, Bool.or_eq_true, beq_iff_eq] at hw
    rcases hw with (ha | rfl) | rfl
    · change (decide (c.val ≥ '0'.val) && decide (c.val ≤ '9'.val)) = true at h
      change (decide (c.val ≥ 'A'.val ∧ c.val ≤ 'Z'.val) ||
        decide (c.val ≥ 'a'.val) && decide (c.val ≤ 'z'.val)) = true at ha
      grind
    · exact absurd h (by decide)
    · exact absurd h (by decide)

theorem of_mem_mark {m : Mark} {c : Char} (h : c ∈ m.text) : of c = .mark := by
  have table : ∀ m ∈ Mark.all, m.text.all fun c => of c = .mark := by decide
  simpa using List.all_eq_true.1 (table m (Mark.mem_all m)) c h

theorem of_mem_keyword {k : Keyword} {c : Char} (h : c ∈ k.text) : of c = .word := by
  have table : ∀ k ∈ Keyword.all, k.text.all fun c => of c = .word := by decide
  simpa using List.all_eq_true.1 (table k (Keyword.mem_all k)) c h

theorem of_eq_word_iff {c : Char} : of c = .word ↔ isWordChar c = true := by
  grind [of]

theorem of_eq_digit_iff {c : Char} : of c = .digit ↔ c.isDigit = true := by
  have h := @isWordChar_of_isDigit c
  grind [of]

theorem of_eq_space_iff {c : Char} : of c = .space ↔ isSpace c = true := by
  constructor
  · intro h
    grind [of]
  · intro h
    simp only [isSpace, Bool.or_eq_true, beq_iff_eq] at h
    rcases h with ((rfl | rfl) | rfl) | rfl <;> decide

theorem of_eq_mark_iff {c : Char} : of c = .mark ↔ (Mark.single? c).isSome = true := by
  constructor
  · intro h
    grind [of]
  · intro h
    obtain ⟨m, hm⟩ := Option.isSome_iff_exists.1 h
    exact of_mem_mark (m := m) (by simp [Mark.single?_eq_some_iff.1 hm])

theorem of_eq_foreign_iff {c : Char} : of c = .foreign ↔ isForeign c = true := by
  grind [of, isForeign]

end CharClass

theorem Kind.charClass_ne_space (k : Kind) : k.charClass ≠ .space := by
  cases k <;> simp [charClass]

namespace Token

theorem WellFormed.text_ne_nil {t : Token} (h : t.WellFormed) : t.text ≠ [] := by
  obtain ⟨kind, text⟩ := t
  cases kind with
  | eof => exact h.elim
  | illegal =>
    obtain ⟨c, hc, -⟩ := h
    rw [hc]
    exact List.cons_ne_nil c []
  | ident => exact h.1
  | int => exact h.1
  | mark m =>
    have table : ∀ m ∈ Mark.all, m.text ≠ [] := by decide
    exact fun hn => table m (Mark.mem_all m) (h.symm.trans hn)
  | keyword k =>
    have table : ∀ k ∈ Keyword.all, k.text ≠ [] := by decide
    exact fun hn => table k (Keyword.mem_all k) (h.symm.trans hn)

theorem WellFormed.kind_ne_eof {t : Token} (h : t.WellFormed) : t.kind ≠ .eof := by
  intro hk
  rw [WellFormed, hk] at h
  exact h

theorem WellFormed.charClass {t : Token} (h : t.WellFormed) {c : Char} (hc : c ∈ t.text) :
    CharClass.of c = t.kind.charClass := by
  obtain ⟨kind, text⟩ := t
  cases kind with
  | eof => exact h.elim
  | illegal =>
    obtain ⟨d, hd, hf⟩ := h
    rw [hd] at hc
    obtain rfl := List.mem_singleton.1 hc
    exact CharClass.of_eq_foreign_iff.2 hf
  | ident => exact CharClass.of_eq_word_iff.2 (h.2.1 c hc)
  | int => exact CharClass.of_eq_digit_iff.2 (h.2 c hc)
  | mark m => exact CharClass.of_mem_mark (h ▸ hc)
  | keyword k => exact CharClass.of_mem_keyword (h ▸ hc)

theorem WellFormed.not_isSpace {t : Token} (h : t.WellFormed) {c : Char} (hc : c ∈ t.text) :
    isSpace c = false := by
  cases hs : isSpace c with
  | false => rfl
  | true =>
    have hk := (CharClass.of_eq_space_iff.2 hs).symm.trans (h.charClass hc)
    exact absurd hk.symm t.kind.charClass_ne_space

theorem isWord_iff {t : Token} (h : t.WellFormed) :
    t.isWord = true ↔ t.kind.charClass = .word := by
  obtain ⟨kind, text⟩ := t
  cases kind with
  | eof => exact h.elim
  | _ => simp [isWord, isKeyword, Kind.charClass]

theorem kind_eq_int_iff {t : Token} : t.kind = .int ↔ t.kind.charClass = .digit := by
  cases t.kind <;> simp [Kind.charClass]

end Token
end Lexeme
