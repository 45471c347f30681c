import Lexeme.Proofs.Language
import Lexeme.Fault

/-!
Foreign characters and the tokens that stand for them. Every foreign character of a text becomes an
illegal token of its own and no other character becomes one, so what is asked of the illegal tokens
of a text can be asked of its characters: `filter_illegal_lexemes`, by induction on the scan. The
main statement, `foreign_reported_once`, carries this through the check and the notice.
-/

namespace Lexeme

/-- The token that stands for a foreign character. -/
def Token.ofForeign (c : Char) : Token := ⟨.illegal, [c]⟩

theorem Kind.charClass_eq_foreign_iff {k : Kind} : k.charClass = .foreign ↔ k = .illegal := by
  cases k <;> simp [charClass]

theorem IsGap.filter_isForeign {w : Text} (h : IsGap w) : w.filter isForeign = [] := by
  rw [List.filter_eq_nil_iff]
  intro c hc hf
  have hs := CharClass.of_eq_space_iff.2 (h c hc)
  rw [CharClass.of_eq_foreign_iff.2 hf] at hs
  exact absurd hs (by decide)

theorem Token.WellFormed.eq_ofForeign {t : Token} (h : t.WellFormed) (hk : t.kind = .illegal) :
    ∃ c, t = ofForeign c ∧ isForeign c = true := by
  obtain ⟨kind, text⟩ := t
  obtain rfl : kind = .illegal := hk
  obtain ⟨c, hc, hf⟩ := h
  obtain rfl : text = [c] := hc
  exact ⟨c, rfl, hf⟩

theorem Token.WellFormed.filter_isForeign {t : Token} (h : t.WellFormed) (hk : t.kind ≠ .illegal) :
    t.text.filter isForeign = [] := by
  rw [List.filter_eq_nil_iff]
  intro c hc hf
  have hcc := h.charClass hc
  rw [CharClass.of_eq_foreign_iff.2 hf] at hcc
  exact hk (Kind.charClass_eq_foreign_iff.1 hcc.symm)

theorem filter_illegal_lexemes (s : Text) :
    (lexemes s).filter (fun t => t.kind = .illegal) = (s.filter isForeign).map Token.ofForeign := by
  induction s using scan.induct with
  | case1 s h =>
    have hs := next?_eq_none_iff.1 h
    rw [lexemes_of_gap hs, hs.filter_isForeign, List.filter_nil, List.map_nil]
  | case2 s f h ih =>
    obtain ⟨hp, hs⟩ := next?_eq_some_iff.1 h
    rw [lexemes_of_next h, ← hs, List.filter_append, List.filter_append, hp.gap.filter_isForeign,
      List.nil_append, List.map_append, ← ih]
    by_cases hk : f.token.kind = .illegal
    · obtain ⟨c, ht, hc⟩ := hp.token.eq_ofForeign hk
      simp [ht, Token.ofForeign, hc]
    · simp [hk, hp.token.filter_isForeign hk]

theorem filter_illegal_tokenize (s : Text) :
    (tokenize s).filter (fun t => t.kind = .illegal) =
      (s.filter isForeign).map Token.ofForeign := by
  rw [tokenize, List.filter_append, filter_illegal_lexemes]
  simp [Token.eof]

theorem find?_illegal_tokenize (s : Text) :
    (tokenize s).find? (fun t => t.kind = .illegal) =
      (List.find? isForeign s).map Token.ofForeign := by
  rw [← List.head?_filter, ← List.head?_filter, filter_illegal_tokenize, List.head?_map]

theorem check_tokenize (s : Text) :
    check (tokenize s) = (List.find? isForeign s).elim (.ok (tokenize s))
      fun c => .error (.illegal (Token.ofForeign c) c) := by
  rw [check, checkBy, find?_illegal_tokenize]
  cases List.find? isForeign s <;> rfl

theorem check_tokenize_eq_ok_iff (s : Text) :
    check (tokenize s) = .ok (tokenize s) ↔ ∀ c ∈ s, isForeign c = false := by
  rw [check_tokenize]
  cases hc : List.find? isForeign s with
  | none => simpa using List.find?_eq_none.1 hc
  | some c =>
    have hf := List.find?_some hc
    have hm := List.mem_of_find?_eq_some hc
    simp only [Option.elim_some, reduceCtorEq, false_iff]
    intro hn
    exact absurd (hn c hm) (by simp [hf])

/-- A code point as the notation `U+0040` writes it: in hexadecimal digits, in upper case, with
zeros before them to make four at the least. -/
def codePoint (c : Char) : Text := ((Nat.toDigits 16 c.toNat).leftpad 4 '0').map Char.toUpper

theorem upper_eq_codePoint (c : Char) : Text.Hex.upper 4 c.toNat = codePoint c :=
  Text.Hex.upper_eq 4 c.toNat

theorem codePoint_suffix (c : Char) :
    Raw.ofText ("(U+".toList ++ codePoint c ++ [')']) <:+ (Fault.illegalNotice c).description := by
  have hd : (Fault.illegalNotice c).description =
      Raw.ofText ("illegal character ".toList ++ Text.quoted [c] ++ (' ' :: "(U+".toList) ++
        Text.Hex.upper 4 c.toNat ++ [')']) := rfl
  rw [hd, upper_eq_codePoint]
  apply List.IsSuffix.map
  simp only [List.append_assoc, List.cons_append]
  exact ((List.suffix_cons ' ' _).trans (List.suffix_append _ _)).trans (List.suffix_append _ _)

theorem foreign_reported_once (s : Text) :
    ((tokenize s).filter fun t => t.kind = .illegal).map Token.text =
      (s.filter isForeign).map ([·]) ∧
    (check (tokenize s) = .ok (tokenize s) ↔ ∀ c ∈ s, isForeign c = false) ∧
    (∀ c, List.find? isForeign s = some c →
      check (tokenize s) = .error (.illegal ⟨.illegal, [c]⟩ c) ∧
      ∃ n, (Fault.illegal ⟨.illegal, [c]⟩ c).notice? = some n ∧
        Raw.ofText ("(U+".toList ++ codePoint c ++ [')']) <:+ n.description) ∧
    ∀ length, check (tokenize s) ≠ .error (.notOneCharacter length) := by
  have hc := check_tokenize s
  refine ⟨?_, check_tokenize_eq_ok_iff s, ?_, ?_⟩
  · rw [filter_illegal_tokenize, List.map_map]
    rfl
  · intro c hf
    rw [hf, Option.elim_some] at hc
    exact ⟨hc, Fault.illegalNotice c, rfl, codePoint_suffix c⟩
  · intro length hl
    rw [hc] at hl
    cases hs : List.find? isForeign s with
    | none => simp [hs] at hl
    | some c => simp [hs] at hl

end Lexeme
