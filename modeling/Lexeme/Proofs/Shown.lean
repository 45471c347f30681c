import Lexeme.Proofs.Cleaning
import Lexeme.Proofs.Pieces
import Lexeme.Proofs.ReadBack
import Lexeme.Proofs.Rows
import Mathlib.Data.List.Count

/-!
What is to be printed of a source. It is printed whole, although what is printed loses its control
sequences: a sequence starts with an escape character and a bracket, and in the lines of text an
escape character ends its line, while JSON has none at all. As text the output is a line for each
piece, and so nothing at all for none of them, and as JSON an array with an item for each piece. A
surrogate of the source is one of the output just if that is text; it can then not be written.
-/

namespace Lexeme

open Text.ControlSequence

section Openings

/-- What every control sequence starts with. -/
def opening : Raw := [.char escape, .char '[']

theorem not_occurs_of_not_opening {t : Text} (h : ¬ opening <:+: Raw.ofText t) : ¬ Occurs t := by
  intro ho
  obtain ⟨before, parameters, intermediates, last, after, rfl, -⟩ := ho
  have hi : [escape, '['] <:+: before ++ escape :: '[' ::
      (parameters ++ (intermediates ++ last :: after)) :=
    ⟨before, _, by rw [List.append_assoc]; rfl⟩
  exact h (hi.map Point.char)

theorem not_opening_cons {p : Point} {s : Raw} (hp : p = .char escape → s.head? ≠ some (.char '['))
    (hs : ¬ opening <:+: s) : ¬ opening <:+: p :: s := by
  intro h
  rcases List.infix_cons_iff.1 h with h | h
  · obtain ⟨rest, hr⟩ := h
    obtain ⟨rfl, rfl⟩ := List.cons.inj hr
    exact hp rfl rfl
  · exact hs h

theorem not_opening_of_not_escape {s : Raw} (h : .char escape ∉ s) : ¬ opening <:+: s := by
  intro ho
  exact h (ho.subset List.mem_cons_self)

/-- Only the last point of a line may be an escape character. -/
theorem not_opening_line {line s : Raw} (hl : .char escape ∉ line.dropLast)
    (hs : s.head? ≠ some (.char '[')) (h : ¬ opening <:+: s) : ¬ opening <:+: line ++ s := by
  induction line with
  | nil => exact h
  | cons p line ih =>
    cases line with
    | nil => exact not_opening_cons (fun _ => hs) h
    | cons q line =>
      rw [List.dropLast_cons_cons, List.mem_cons, not_or] at hl
      exact not_opening_cons (fun hc => absurd hc.symm hl.1) (ih hl.2)

theorem not_opening_joined {lines : List Raw} (h : ∀ l ∈ lines, .char escape ∉ l.dropLast) :
    ¬ opening <:+: Text.joined [.char '\n'] lines := by
  induction lines with
  | nil => exact not_opening_of_not_escape (by simp [Text.joined])
  | cons l lines ih =>
    obtain ⟨hl, hls⟩ := List.forall_mem_cons.1 h
    cases lines with
    | nil =>
      have he : ¬ opening <:+: [] := not_opening_of_not_escape (by simp)
      have hn := not_opening_line hl (s := []) (by simp) he
      rw [List.append_nil] at hn
      rw [Text.joined, List.intercalate_singleton]
      exact hn
    | cons m lines =>
      rw [Text.joined, List.intercalate_cons_cons, List.append_assoc]
      apply not_opening_line hl
      · simp
      · exact not_opening_cons (fun hc => absurd hc (by decide)) (ih hls)

theorem withoutControlSequences_of_not_opening {s : Raw} (h : ¬ opening <:+: s) :
    s.withoutControlSequences = s := by
  apply Raw.onStretches_eq_self
  intro t ht
  exact Text.withoutControlSequences_eq_iff.2 (not_occurs_of_not_opening fun ho => h (ho.trans ht))

end Openings

section Rows

theorem Kind.escape_not_mem_name (k : Kind) : escape ∉ k.name := by
  intro hm
  exact absurd (Kind.mem_name hm) (by decide)

theorem Token.WellFormed.escape_not_mem_dropLast {t : Token} (h : t.WellFormed) :
    escape ∉ t.text.dropLast := by
  intro hm
  have hc := h.charClass ((List.dropLast_sublist _).subset hm)
  have he : CharClass.of escape = .foreign := by decide
  obtain ⟨kind, text⟩ := t
  cases kind with
  | illegal =>
    obtain ⟨c, ht, -⟩ := h
    obtain rfl : text = [c] := ht
    simp at hm
  | eof => exact h.elim
  | ident | int | mark m | keyword k =>
    rw [he] at hc
    exact absurd hc (by simp [Kind.charClass])

/-- A piece is the end token, a token that its kind admits, or a stray surrogate. -/
theorem Raw.piece_cases {s : Raw} {p : Piece} (h : p ∈ s.pieces) :
    p = .token Token.eof ∨ (∃ t : Token, p = .token t ∧ t.WellFormed) ∨ ∃ x, p = .stray x := by
  rcases List.mem_append.1 h with h | h
  · cases p with
    | token t => exact .inr (.inl ⟨t, rfl, wellFormed_of_mem_lexemes h⟩)
    | stray x => exact .inr (.inr ⟨x, rfl⟩)
  · exact .inl (List.mem_singleton.1 h)

variable {s : Raw} {p : Piece}

theorem Piece.text_ne_nil (h : p ∈ s.pieces) : p.text ≠ [] := by
  rcases Raw.piece_cases h with rfl | ⟨t, rfl, ht⟩ | ⟨x, rfl⟩
  · decide
  · simpa [text, Raw.ofText] using ht.text_ne_nil
  · exact List.cons_ne_nil _ _

theorem Piece.escape_not_mem_row_dropLast (h : p ∈ s.pieces) : .char escape ∉ p.row.dropLast := by
  have ht : .char escape ∉ p.text.dropLast := by
    rcases Raw.piece_cases h with rfl | ⟨t, rfl, ht⟩ | ⟨x, rfl⟩
    · decide
    · rw [text, Raw.ofText, ← List.map_dropLast]
      intro hm
      obtain ⟨c, hc, he⟩ := List.mem_map.1 hm
      exact ht.escape_not_mem_dropLast (Point.char.inj he ▸ hc)
    · simp [text]
  have hk := p.kind.escape_not_mem_name
  have he : escape ≠ '\t' := by decide
  rw [row, List.dropLast_append_of_ne_nil (List.cons_ne_nil _ _),
    List.dropLast_cons_of_ne_nil (text_ne_nil h)]
  simp [Raw.ofText, hk, he, ht]

theorem Piece.lineFeed_not_mem_row (h : p ∈ s.pieces) : .char '\n' ∉ p.row := by
  have ht : .char '\n' ∉ p.text := by
    rcases Raw.piece_cases h with rfl | ⟨t, rfl, ht⟩ | ⟨x, rfl⟩
    · decide
    · intro hm
      exact absurd (ht.not_isSpace (c := '\n') (by simpa [text, Raw.ofText] using hm)) (by decide)
    · simp [text]
  have hk : '\n' ∉ p.kind.name := fun hm => absurd (Kind.mem_name hm) (by decide)
  simp [row, Raw.ofText, hk, ht]

theorem Piece.surrogate_mem_row_iff {x : Surrogate} : .surrogate x ∈ p.row ↔ p = .stray x := by
  cases p <;> simp [row, text, Raw.ofText, eq_comm]

theorem joined_ofText (parts : List Text) :
    Text.joined [.char '\n'] (parts.map Raw.ofText) = Raw.ofText (Text.joined ['\n'] parts) := by
  induction parts with
  | nil => rfl
  | cons p parts ih =>
    cases parts with
    | nil => simp [Text.joined]
    | cons q parts =>
      simp only [Text.joined, List.map_cons, List.intercalate_cons_cons] at ih ⊢
      rw [ih]
      simp only [Raw.ofText, List.map_append, List.map_cons, List.map_nil]

/-- Tokens that are pieces are rendered as they are as tokens. -/
theorem Piece.render_map_token (f : Format) (ts : List Token) :
    render f (ts.map token) = Raw.ofText (Lexeme.render f ts) := by
  cases f with
  | text =>
    have hr : (ts.map token).map row = (ts.map Token.row).map Raw.ofText := by
      simp [row, Token.row, text, kind, Raw.ofText]
    rw [render, hr]
    exact joined_ofText _
  | json =>
    have ho : (ts.map token).map object = ts.map Token.object := by
      rw [List.map_map]
      refine List.map_congr_left fun t _ => ?_
      exact congrArg (Json.object _) (Json.quotedRaw_ofText t.text)
    rw [render, ho]
    rfl

theorem not_opening_render {ps : List Piece} (h : ∀ p ∈ ps, p ∈ s.pieces) (f : Format) :
    ¬ opening <:+: Piece.render f ps := by
  cases f with
  | text =>
    apply not_opening_joined
    exact List.forall_mem_map.2 fun p hp => Piece.escape_not_mem_row_dropLast (h p hp)
  | json =>
    apply not_opening_of_not_escape
    intro he
    have hp : Json.Plain (Json.array (ps.map Piece.object)) :=
      Json.plain_array (List.forall_mem_map.2 fun p _ => Json.plain_piece p)
    exact absurd (hp escape (by simpa [Piece.render, Raw.ofText] using he)) (by decide)

end Rows

def Piece.line (p : Piece) : Raw := p.row ++ [.char '\n']

/-- A raw text that a format can be printed for: any text, and any raw text as JSON. -/
def Raw.WritableAs (s : Raw) (f : Format) : Prop := f = .text → ∀ x, .surrogate x ∉ s

theorem Raw.not_writableAs_iff {s : Raw} {f : Format} :
    ¬ s.WritableAs f ↔ f = .text ∧ ∃ x, .surrogate x ∈ s := by
  simp [WritableAs]

namespace Command

/-- How many pieces an output shows: as many as it has lines, or as its array has items. -/
def shownCount? : Format → Text → Option Nat
  | .text, output => some (output.count '\n')
  | .json, output =>
    match Json.read? output with
    | some (.array items) => some items.length
    | _ => none

theorem joined_line {rows : List Raw} (h : rows ≠ []) :
    Text.joined [.char '\n'] rows ++ [.char '\n'] = rows.flatMap (· ++ [.char '\n']) := by
  induction rows with
  | nil => exact absurd rfl h
  | cons r rows ih =>
    cases rows with
    | nil => simp [Text.joined]
    | cons q rows =>
      rw [List.flatMap_cons, ← ih (List.cons_ne_nil q rows), Text.joined, Text.joined,
        List.intercalate_cons_cons]
      simp

section Pieces

variable {s : Raw} {ps : List Piece}

theorem pieceOutput_eq (h : ∀ p ∈ ps, p ∈ s.pieces) (f : Format) :
    pieceOutput f ps =
      if ps = [] ∧ f = .text then [] else Piece.render f ps ++ [.char '\n'] := by
  rw [pieceOutput, Raw.printed, withoutControlSequences_of_not_opening (not_opening_render h f)]
  simp only [Bool.and_eq_true, List.isEmpty_iff, decide_eq_true_eq]

theorem pieceOutput_text (h : ∀ p ∈ ps, p ∈ s.pieces) :
    pieceOutput .text ps = ps.flatMap Piece.line := by
  rw [pieceOutput_eq h]
  by_cases hn : ps = []
  · rw [if_pos ⟨hn, rfl⟩, hn, List.flatMap_nil]
  · rw [if_neg fun hc => hn hc.1]
    have hr : ps.map Piece.row ≠ [] := by simpa using hn
    have hj := joined_line hr
    rw [List.flatMap_map] at hj
    exact hj

theorem pieceOutput_json (h : ∀ p ∈ ps, p ∈ s.pieces) :
    pieceOutput .json ps = Raw.ofText (Json.array (ps.map Piece.object) ++ ['\n']) := by
  rw [pieceOutput_eq h, if_neg (by simp), Raw.ofText, List.map_append]
  rfl

theorem surrogate_mem_lines_iff {x : Surrogate} :
    .surrogate x ∈ ps.flatMap Piece.line ↔ .stray x ∈ ps := by
  simp [List.mem_flatMap, Piece.line, Piece.surrogate_mem_row_iff]

theorem count_lines (h : ∀ p ∈ ps, p ∈ s.pieces) :
    (ps.flatMap Piece.line).count (.char '\n') = ps.length := by
  induction ps with
  | nil => rfl
  | cons p ps ih =>
    obtain ⟨hp, hps⟩ := List.forall_mem_cons.1 h
    have hr := List.count_eq_zero.2 (Piece.lineFeed_not_mem_row hp)
    rw [List.flatMap_cons, List.count_append, ih hps, Piece.line, List.count_append, hr,
      List.length_cons]
    simp [Nat.add_comm]

theorem shownCount?_pieceOutput (h : ∀ p ∈ ps, p ∈ s.pieces) {f : Format} {t : Text}
    (ht : pieceOutput f ps = Raw.ofText t) : shownCount? f t = some ps.length := by
  cases f with
  | text =>
    have hc := count_lines h
    rw [← pieceOutput_text h, ht, Raw.ofText,
      List.count_map_of_injective _ _ fun _ _ => Point.char.inj] at hc
    rw [shownCount?, hc]
  | json =>
    rw [pieceOutput_json h] at ht
    rw [shownCount?, ← Raw.ofText_injective ht, Json.read?_render_pieces]
    simp [Json.ofPieces]

end Pieces

section Output

variable (c : Settings) (s : Raw)

theorem shownPieces_pieces :
    shownPieces c s.pieces = if c.includeEof then s.pieces else s.lexemes := by
  refine shownBy_concat ?_ rfl c
  intro p hp
  cases p with
  | token t => exact (Raw.wellFormed_of_mem_lexemes hp).kind_ne_eof
  | stray x => simp [Piece.kind]

theorem mem_pieces_of_mem_shown : ∀ p ∈ shownPieces c s.pieces, p ∈ s.pieces :=
  fun _ hp => (List.mem_filter.1 hp).1

theorem stray_mem_shown_iff {x : Surrogate} :
    .stray x ∈ shownPieces c s.pieces ↔ .surrogate x ∈ s := by
  rw [← Raw.stray_mem_lexemes_iff, shownPieces_pieces]
  cases c.includeEof <;> simp [Raw.pieces]

theorem output_text (h : c.format = .text) :
    output c s = (shownPieces c s.pieces).flatMap Piece.line := by
  rw [output, h, pieceOutput_text (mem_pieces_of_mem_shown c s)]

theorem output_json (h : c.format = .json) :
    output c s =
      Raw.ofText (Json.array ((shownPieces c s.pieces).map Piece.object) ++ ['\n']) := by
  rw [output, h, pieceOutput_json (mem_pieces_of_mem_shown c s)]

variable {c s}

theorem output_of_writable (h : s.WritableAs c.format) : ∃ t, output c s = Raw.ofText t := by
  cases hf : c.format with
  | text =>
    apply Raw.exists_ofText
    intro x hx
    rw [output_text c s hf, surrogate_mem_lines_iff, stray_mem_shown_iff] at hx
    exact h hf x hx
  | json => exact ⟨_, output_json c s hf⟩

theorem written_of_not_writable (h : ¬ s.WritableAs c.format) :
    c.format = .text ∧ ∃ u, (output c s).written = .error u := by
  obtain ⟨hf, x, hx⟩ := Raw.not_writableAs_iff.1 h
  refine ⟨hf, ?_⟩
  cases hw : (output c s).written with
  | error u => exact ⟨u, rfl⟩
  | ok t =>
    have ht := Raw.written_eq_ok_iff.1 hw
    rw [output_text c s hf] at ht
    have hm := surrogate_mem_lines_iff.2 ((stray_mem_shown_iff c s).2 hx)
    rw [ht] at hm
    exact absurd hm (Raw.surrogate_not_mem_ofText t x)

variable (c s) in
/-- What is to be printed can be written or not, by what the source holds. -/
theorem output_cases :
    (s.WritableAs c.format ∧ ∃ t, output c s = Raw.ofText t) ∨
    (¬ s.WritableAs c.format ∧ ∃ u, (output c s).written = .error u) := by
  by_cases hw : s.WritableAs c.format
  · exact .inl ⟨hw, output_of_writable hw⟩
  · exact .inr ⟨hw, (written_of_not_writable hw).2⟩

/-- A surrogate alone is shown after the name of its kind and a tab. -/
theorem written_output_surrogate (h : c.format = .text) (x : Surrogate) :
    (output c [.surrogate x]).written = .error ⟨8, x, 0⟩ := by
  rw [output_text c _ h, shownPieces_pieces, Raw.pieces, Raw.lexemes_surrogate]
  cases c.includeEof <;> rfl

end Output

end Command
end Lexeme
