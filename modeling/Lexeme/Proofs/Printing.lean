import Lexeme.Proofs.Outcome

/-!
Tokens are printed whole, although what is printed loses its control sequences: there are none in the
rendering of a scan, whatever is scanned. The one thing that keeps a scan from being printed is a
surrogate in a source that is to be printed as text. The main statement is `prints_exactly`.
-/

namespace Lexeme.Command

open Text.ControlSequence

theorem shownPieces_over {v : Environment} {e : Settings} (h : v.settings = .ok e) (f : Flags)
    (s : Raw) : shownPieces (f.over e) s.pieces = if f.noEof then s.lexemes else s.pieces := by
  rw [shownPieces_pieces, Flags.over, v.includeEof_of_settings h]
  cases f.noEof <;> rfl

theorem Invocation.prints_exactly {i : Invocation} {r : Request} {e : Settings} {s : Raw}
    (hp : i.plan = .scan r) (he : i.environment.settings = .ok e)
    (hs : r.source.text i.input = .ok s) :
    let format := (r.flags.over e).format
    let shown := if r.flags.noEof then s.lexemes else s.pieces
    (s.WritableAs format → Raw.ofText i.run.stdout =
      if shown = [] ∧ format = .text then [] else Piece.render format shown ++ [.char '\n']) ∧
    (¬ s.WritableAs format → i.run.exit.number = 3 ∧ i.run.stdout = []) ∧
    (∀ t, Raw.ofText t <:+: Piece.render format shown → ¬ Occurs t) ∧
    (Piece.render format shown).withoutControlSequences = Piece.render format shown ∧
    ∀ t, s = Raw.ofText t →
      let shown := if r.flags.noEof then lexemes t else tokenize t
      i.run.stdout = if shown = [] ∧ format = .text then [] else render format shown ++ ['\n'] := by
  intro format shown
  have hi : i.Scans r.source (r.flags.over e) s := ⟨⟨r.flags, e, hp, he, rfl⟩, hs⟩
  have ho : shownPieces (r.flags.over e) s.pieces = shown := shownPieces_over he r.flags s
  have hm : ∀ p ∈ shown, p ∈ s.pieces := ho ▸ mem_pieces_of_mem_shown _ s
  have hn := not_opening_render hm format
  have hw : s.WritableAs format → Raw.ofText i.run.stdout =
      if shown = [] ∧ format = .text then [] else Piece.render format shown ++ [.char '\n'] := by
    intro hw
    obtain ⟨t, ht⟩ := output_of_writable hw
    rw [hi.run_of_output ht, ← pieceOutput_eq hm, ← ht, output, ho]
  refine ⟨hw, ?_, ?_, withoutControlSequences_of_not_opening hn, ?_⟩
  · intro hu
    obtain ⟨-, u, hu⟩ := written_of_not_writable hu
    rw [hi.run_of_unwritable hu]
    exact ⟨rfl, rfl⟩
  · intro t ht
    exact not_occurs_of_not_opening fun hc => hn (hc.trans ht)
  · rintro t rfl
    intro tokens
    have hk : shown = tokens.map .token := by
      simp only [shown, tokens]
      cases r.flags.noEof with
      | true => exact Raw.lexemes_ofText t
      | false => exact Raw.pieces_ofText t
    have hw := hw fun _ => Raw.surrogate_not_mem_ofText t
    apply Raw.ofText_injective
    rw [hw, hk, Piece.render_map_token]
    simp only [List.map_eq_nil_iff]
    split <;> simp [Raw.ofText]

theorem Invocation.prints_red :
    let s := escape :: "[31m".toList
    let i : Invocation := ⟨[Raw.ofText "-e".toList, Raw.ofText s], {}, [], fun _ => none⟩
    let r : Request := ⟨.expr (Raw.ofText s), {}⟩
    Occurs s ∧ i.plan = .scan r ∧ i.environment.settings = .ok {} ∧
    r.source.text i.input = .ok (Raw.ofText s) ∧
    i.run.stdout = render .text (tokenize s) ++ ['\n'] := by
  intro s i r
  have hp : i.plan = .scan r := rfl
  have he : i.environment.settings = .ok {} := rfl
  have hs : r.source.text i.input = .ok (Raw.ofText s) := rfl
  have ho : Occurs s :=
    ⟨[], "31".toList, [], 'm', [], rfl, List.all_eq_true.1 rfl, List.all_eq_true.1 rfl, rfl⟩
  have hn : tokenize s ≠ [] := by simp [tokenize]
  obtain ⟨-, -, -, -, h⟩ := prints_exactly hp he hs
  exact ⟨ho, hp, he, hs, (h s rfl).trans (if_neg fun hc => hn hc.1)⟩

/-- What cannot be written is not printed, not even the line end. -/
theorem Invocation.prints_nothing_of_surrogate :
    let s : Raw := [.surrogate ⟨0x4ff⟩]
    let i : Invocation := ⟨[Raw.ofText "-e".toList, s], {}, [], fun _ => none⟩
    let r : Request := ⟨.expr s, {}⟩
    i.plan = .scan r ∧ i.environment.settings = .ok {} ∧ r.source.text i.input = .ok s ∧
    Raw.ofText i.run.stdout ≠ Piece.render .text s.pieces ++ [.char '\n'] := by
  intro s i r
  have hi : i.Scans (.expr s) {} s := ⟨⟨_, _, rfl, rfl, rfl⟩, rfl⟩
  have hu := written_output_surrogate (c := {}) rfl ⟨0x4ff⟩
  refine ⟨rfl, rfl, rfl, ?_⟩
  rw [hi.run_of_unwritable hu]
  exact (List.append_ne_nil_of_right_ne_nil _ (List.cons_ne_nil _ _)).symm

end Lexeme.Command
