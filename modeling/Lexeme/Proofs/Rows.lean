import Lexeme.Command.Run
import Lexeme.Proofs.Language

/-!
Lines of kind and text are read back as the tokens that they were written from, as long as no text
holds a line feed. A line is cut at its first tab: no name of a kind holds one, so whatever tabs and
other marks of a line's end the text holds come after it. Line feeds are white space, so the tokens
of a source hold none, and the lines of two sources differ wherever their tokens do. The main
statement is `rows_tell_tokens`.
-/

namespace Lexeme

/-- The token of a line, which names its kind before the first tab. -/
def Token.ofRow? (line : Text) : Option Token := do
  let text ← (line.dropWhile (· ≠ '\t')).tail?
  let kind ← Kind.ofName? (line.takeWhile (· ≠ '\t'))
  return ⟨kind, text⟩

/-- The tokens of a text, one for each line. An empty text has no lines. -/
def readRows? (s : Text) : Option (List Token) :=
  if s = [] then some [] else (s.splitOn '\n').mapM Token.ofRow?

theorem Token.ofRow?_row (t : Token) : ofRow? t.row = some t := by
  have hn : ∀ c ∈ t.kind.name, decide (c ≠ '\t') = true := by
    intro c hc
    apply decide_eq_true
    rintro rfl
    exact absurd (Kind.mem_name hc) (by decide)
  have hk : Kind.ofName? t.kind.name = some t.kind := Kind.ofName?_eq_some_iff.2 rfl
  have hs : ∀ c, ('\t' :: t.text).head? = some c → decide (c ≠ '\t') = false := by simp
  rw [ofRow?, row, Text.takeWhile_append hn hs, Text.dropWhile_append hn hs, hk]
  rfl

theorem Token.lineFeed_not_mem_row {t : Token} (h : '\n' ∉ t.text) : '\n' ∉ t.row := by
  intro hm
  rcases List.mem_append.1 hm with hn | ht
  · exact absurd (Kind.mem_name hn) (by decide)
  rcases List.mem_cons.1 ht with hc | ht
  · exact absurd hc (by decide)
  · exact h ht

theorem mapM_ofRow? (ts : List Token) : (ts.map Token.row).mapM Token.ofRow? = some ts := by
  induction ts with
  | nil => rfl
  | cons t ts ih =>
    rw [List.map_cons, List.mapM_cons, Token.ofRow?_row, ih]
    rfl

theorem joined_rows_ne_nil {ts : List Token} (h : ts ≠ []) :
    Text.joined ['\n'] (ts.map Token.row) ≠ [] := by
  obtain ⟨t, ts, rfl⟩ := List.exists_cons_of_ne_nil h
  have ht : t.row ≠ [] := by simp [Token.row]
  cases ts with
  | nil => simpa [Text.joined] using ht
  | cons u us => simp [Text.joined, ht]

theorem render_text_eq_nil_iff {ts : List Token} : render .text ts = [] ↔ ts = [] := by
  constructor
  · intro h
    by_contra hn
    exact joined_rows_ne_nil hn h
  · intro h
    rw [h]
    rfl

theorem readRows?_render {ts : List Token} (h : ∀ t ∈ ts, '\n' ∉ t.text) :
    readRows? (render .text ts) = some ts := by
  by_cases hn : ts = []
  · rw [hn]
    rfl
  · have hr : ∀ l ∈ ts.map Token.row, '\n' ∉ l :=
      List.forall_mem_map.2 fun t ht => Token.lineFeed_not_mem_row (h t ht)
    have hs : (render .text ts).splitOn '\n' = ts.map Token.row :=
      List.splitOn_intercalate '\n' hr (by simpa using hn)
    rw [readRows?, if_neg (mt render_text_eq_nil_iff.1 hn), hs, mapM_ofRow?]

theorem lineFeed_not_mem_of_mem_tokenize {s : Text} {t : Token} (h : t ∈ tokenize s) :
    '\n' ∉ t.text := by
  rcases List.mem_append.1 h with h | h
  · intro hn
    exact absurd ((wellFormed_of_mem_lexemes h).not_isSpace hn) (by decide)
  · rw [List.mem_singleton.1 h]
    decide

section Shown

open Command

theorem Command.mem_shownTokens {e : Settings} {s : Text} {t : Token}
    (h : t ∈ shownTokens e (tokenize s)) : t ∈ tokenize s :=
  (List.mem_filter.1 h).1

theorem shownBy_concat {α : Type} {kind : α → Kind} {items : List α} {last : α}
    (h : ∀ a ∈ items, kind a ≠ .eof) (hl : kind last = .eof) (e : Settings) :
    shownBy kind e (items ++ [last]) = if e.includeEof then items ++ [last] else items := by
  cases he : e.includeEof with
  | true => simp [shownBy, he]
  | false =>
    have hf : items.filter (fun a => kind a ≠ .eof) = items :=
      List.filter_eq_self.2 fun a ha => by simp [h a ha]
    simpa [shownBy, he, hl] using hf

theorem shownTokens_tokenize (e : Settings) (s : Text) :
    shownTokens e (tokenize s) = if e.includeEof then tokenize s else lexemes s :=
  shownBy_concat (fun _ ht => (wellFormed_of_mem_lexemes ht).kind_ne_eof) rfl e

end Shown

open Command in
theorem rows_tell_tokens :
    (∀ ts : List Token, (∀ t ∈ ts, '\n' ∉ t.text) → readRows? (render .text ts) = some ts) ∧
    (∀ ts : List Token, render .text ts = [] ↔ ts = []) ∧
    ∀ e : Settings,
      (∀ s, ∀ t ∈ shownTokens e (tokenize s), '\n' ∉ t.text) ∧
      ∀ s u, render .text (shownTokens e (tokenize s)) = render .text (shownTokens e (tokenize u)) ↔
        tokenize s = tokenize u := by
  refine ⟨fun ts h => readRows?_render h, fun ts => render_text_eq_nil_iff, ?_⟩
  intro e
  have hl : ∀ s, ∀ t ∈ shownTokens e (tokenize s), '\n' ∉ t.text := by
    intro s t ht
    exact lineFeed_not_mem_of_mem_tokenize (mem_shownTokens ht)
  refine ⟨hl, ?_⟩
  intro s u
  constructor
  · intro h
    have hr := readRows?_render (hl s)
    rw [h, readRows?_render (hl u), shownTokens_tokenize, shownTokens_tokenize] at hr
    have hs := Option.some.inj hr
    cases he : e.includeEof with
    | true => simpa [he] using hs.symm
    | false =>
      have hs : lexemes u = lexemes s := by simpa [he] using hs
      rw [tokenize, tokenize, hs]
  · intro h
    rw [h]

/-- Tabs, carriage returns and separators of other scripts stay in the texts that hold them. -/
theorem rows_tell_tabs :
    let ts : List Token := [⟨.ident, "\ta\t\r".toList⟩, ⟨.illegal, []⟩, ⟨.int, [Char.ofNat 0x2028]⟩]
    (∀ t ∈ ts, '\n' ∉ t.text) ∧ readRows? (render .text ts) = some ts := by
  intro ts
  have h : ∀ t ∈ ts, '\n' ∉ t.text := by decide
  exact ⟨h, rows_tell_tokens.1 ts h⟩

end Lexeme
