import Lexeme.Proofs.Language
import Lexeme.Proofs.Seam

/-!
The text of a token says which token it is. A well-formed token is read back from its own text, and
reading has one result only, so two well-formed tokens of one text are the same token. The tables of
keywords and marks are met by the same argument, for every kind with a fixed text makes a
well-formed token of that text. The main statement is `text_determines_token`.
-/

namespace Lexeme

theorem Kind.symbol?_eq_none_iff {k : Kind} :
    k.symbol? = none ↔ k = .ident ∨ k = .int ∨ k = .illegal := by
  cases k <;> simp [symbol?]

namespace Token

theorem WellFormed.tokenize_text {t : Token} (h : t.WellFormed) :
    tokenize t.text = [t, Token.eof] := by
  have hs : t.kind.StopsAt [] := by simp [Kind.StopsAt]
  have hn : tokenize [] = [Token.eof] := tokenize_of_gap (by simp [IsGap])
  have ht := (tokenize_text_append_iff h []).2 hs
  rwa [List.append_nil, hn] at ht

theorem WellFormed.eq_of_text_eq {t u : Token} (ht : t.WellFormed) (hu : u.WellFormed)
    (h : t.text = u.text) : t = u := by
  have hl := ht.tokenize_text
  rw [h, hu.tokenize_text] at hl
  exact (List.cons.inj hl).1.symm

theorem wellFormed_of_mem_tokenize {s : Text} {t : Token} (h : t ∈ tokenize s)
    (hk : t.kind ≠ .eof) : t.WellFormed := by
  rcases List.mem_append.1 h with h | h
  · exact wellFormed_of_mem_lexemes h
  · obtain rfl := List.mem_singleton.1 h
    exact absurd rfl hk

theorem wellFormed_of_symbol? {k : Kind} {s : Text} (hk : k ≠ .eof) (h : k.symbol? = some s) :
    (⟨k, s⟩ : Token).WellFormed := by
  cases k with
  | eof => exact absurd rfl hk
  | illegal | ident | int => simp [Kind.symbol?] at h
  | mark m | keyword w => exact (Option.some.inj h).symm

theorem WellFormed.symbol?_eq_text {t : Token} (h : t.WellFormed) (hs : t.kind.symbol? ≠ none) :
    t.kind.symbol? = some t.text := by
  obtain ⟨kind, text⟩ := t
  cases kind with
  | eof => exact h.elim
  | illegal | ident | int => exact absurd rfl hs
  | mark m | keyword k => exact congrArg some h.symm

theorem WellFormed.kind_eq_of_symbol? {t : Token} (h : t.WellFormed) {k : Kind} (hk : k ≠ .eof)
    (hs : k.symbol? = some t.text) : t.kind = k :=
  congrArg kind (h.eq_of_text_eq (wellFormed_of_symbol? hk hs) rfl)

theorem WellFormed.isKeyword_iff {t : Token} (h : t.WellFormed) :
    t.isKeyword = true ↔ (Keyword.ofText? t.text).isSome = true := by
  rw [Option.isSome_iff_exists]
  constructor
  · intro hk
    obtain ⟨kind, text⟩ := t
    cases kind with
    | keyword k => exact ⟨k, Keyword.ofText?_eq_some_iff.2 h.symm⟩
    | _ => exact absurd hk (by simp [isKeyword])
  · intro hk
    obtain ⟨k, hk⟩ := hk
    have ht := h.kind_eq_of_symbol? (k := .keyword k) (by simp)
      (congrArg some (Keyword.ofText?_eq_some_iff.1 hk))
    simp [isKeyword, ht]

end Token

theorem text_determines_token {s : Text} {t : Token} (h : t ∈ tokenize s) (hk : t.kind ≠ .eof) :
    tokenize t.text = [t, Token.eof] ∧
    (t.kind.symbol? = none ↔ t.kind = .ident ∨ t.kind = .int ∨ t.kind = .illegal) ∧
    (t.kind.symbol? ≠ none → t.kind.symbol? = some t.text) ∧
    (∀ k, k ≠ .eof → k.symbol? = some t.text → t.kind = k) ∧
    (t.isKeyword = true ↔ (Keyword.ofText? t.text).isSome = true) ∧
    ∀ s' u, u ∈ tokenize s' → u.kind ≠ .eof → u.text = t.text → u = t := by
  have hw := Token.wellFormed_of_mem_tokenize h hk
  refine ⟨hw.tokenize_text, Kind.symbol?_eq_none_iff, hw.symbol?_eq_text,
    fun k => hw.kind_eq_of_symbol?, hw.isKeyword_iff, ?_⟩
  intro s' u hu huk ht
  exact (Token.wellFormed_of_mem_tokenize hu huk).eq_of_text_eq hw ht

/-- The word that spells the end token is an identifier wherever a source holds it. -/
theorem text_determines_word_of_end :
    let word : Token := ⟨.ident, "EOF".toList⟩
    word ∈ tokenize "fn\tEOF==".toList ∧ word.kind ≠ .eof ∧
    tokenize "EOF".toList = [word, Token.eof] ∧ word.isKeyword = false ∧
    ∀ s' u, u ∈ tokenize s' → u.kind ≠ .eof → u.text = "EOF".toList → u = word := by
  intro word
  have hf : next? "fn\tEOF==".toList =
      some ⟨[], ⟨.keyword .fnWord, "fn".toList⟩, "\tEOF==".toList⟩ := rfl
  have hw : next? "\tEOF==".toList = some ⟨"\t".toList, word, "==".toList⟩ := rfl
  have hm : word ∈ tokenize "fn\tEOF==".toList := by
    rw [tokenize_of_next hf, tokenize_of_next hw]
    simp
  obtain ⟨ht, -, -, -, -, hu⟩ := text_determines_token hm (by decide)
  exact ⟨hm, by decide, ht, rfl, hu⟩

end Lexeme
