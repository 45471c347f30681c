import Lexeme.Proofs.Arguments
import Lexeme.Proofs.Outcome

/-!
Leaving the end token out. Two runs that differ in that alone scan the same text from the same source
and end alike, and if it can be printed at all, the output of the one is that of the other and one
token more: the token is told from a word of the same spelling by its kind. What is given up at a
surrogate is given up at the same place in both. The main statement is `no_eof_removes_end`.
-/

namespace Lexeme.Command

section Pair

/-- The second run is asked to leave the end token out; they differ in nothing else. -/
structure Invocation.LeavesEnd (i j : Invocation) : Prop where
  typed : ∃ t : Typed, t.noEof = false ∧ Typed.ofArguments i.arguments = .ok t ∧
    Typed.ofArguments j.arguments = .ok { t with noEof := true }
  same : j = { i with arguments := j.arguments }

variable {i j : Invocation}

/-- Any arguments that do not ask for it do so with the option put in front of them. -/
theorem Invocation.LeavesEnd.of_arguments {t : Typed} (hn : t.noEof = false)
    (ht : Typed.ofArguments i.arguments = .ok t) :
    i.LeavesEnd { i with arguments := Raw.ofText "--no-eof".toList :: i.arguments } := by
  refine ⟨⟨t, hn, ht, ?_⟩, rfl⟩
  have hr : Typed.ofArguments (Raw.ofText "--no-eof".toList :: i.arguments) =
      ({ noEof := true } : Typed).read none i.arguments := rfl
  rw [hr, Typed.read_eq, ht, Except.map]
  simp [Typed.followedBy]

theorem Invocation.LeavesEnd.plan (h : i.LeavesEnd j) {r : Request} (hp : i.plan = .scan r) :
    r.flags.noEof = false ∧ j.plan = .scan ⟨r.source, { r.flags with noEof := true }⟩ := by
  obtain ⟨t, hn, hi, hj⟩ := h.typed
  obtain ⟨t', file, ha, hc, rfl⟩ := Invocation.admits_of_scan hp
  obtain rfl : t = t' := Except.ok.inj (hi.symm.trans ha.typed)
  have he : j.entry = i.entry := by rw [h.same]
  have hb : j.Admits { t with noEof := true } file :=
    ⟨hj, ha.page, ha.values.format, ha.values.operands, he ▸ ha.values.entry⟩
  refine ⟨hn, hb.plan.trans ?_⟩
  rw [if_neg hc]
  cases file <;> rfl

variable {source : Source} {c : Settings} {s : Raw}

theorem Invocation.LeavesEnd.scans (h : i.LeavesEnd j) (hs : i.Scans source c s) :
    c.includeEof = true ∧ j.Scans source { c with includeEof := false } s := by
  obtain ⟨⟨flags, e, hp, he, rfl⟩, ht⟩ := hs
  obtain ⟨hn, hj⟩ := h.plan hp
  have hi := Environment.includeEof_of_settings he
  have henv : j.environment = i.environment := by rw [h.same]
  have hin : j.input = i.input := by rw [h.same]
  have hn : flags.noEof = false := hn
  refine ⟨by simp [Flags.over, hi, hn], ⟨_, e, hj, henv ▸ he, ?_⟩, hin ▸ ht⟩
  simp [Flags.over]

end Pair

section Removal

variable {i j : Invocation} {source : Source} {c : Settings} {s : Raw}

/-- The settings that leave the end token out and are the same otherwise. -/
def withoutEnd (c : Settings) : Settings := { c with includeEof := false }

theorem shownPieces_withEnd (hc : c.includeEof = true) :
    shownPieces c s.pieces = s.lexemes ++ [.token Token.eof] := by
  rw [shownPieces_pieces, if_pos hc, Raw.pieces]

theorem shownPieces_withoutEnd : shownPieces (withoutEnd c) s.pieces = s.lexemes := by
  rw [shownPieces_pieces]
  rfl

theorem output_withEnd (hf : c.format = .text) (hc : c.includeEof = true) :
    output c s = output (withoutEnd c) s ++ Raw.ofText "EOF\tEOF\n".toList := by
  rw [output_text c s hf, output_text (withoutEnd c) s hf, shownPieces_withEnd hc,
    shownPieces_withoutEnd, List.flatMap_append]
  rfl

theorem read?_output (hf : c.format = .json) {t : Text} (ht : output c s = Raw.ofText t) :
    Json.read? t = some (Json.ofPieces (shownPieces c s.pieces)) := by
  rw [output_json c s hf] at ht
  rw [← Raw.ofText_injective ht]
  exact Json.read?_render_pieces _

theorem Invocation.no_eof_removes_end (h : i.LeavesEnd j) (hs : i.Scans source c s) :
    let word : Token := ⟨.ident, "EOF".toList⟩
    let name := Raw.ofText "EOF".toList
    let object : Json.Value :=
      .object [(Raw.ofText "kind".toList, .string name), (Raw.ofText "text".toList, .string name)]
    j.Scans source (withoutEnd c) s ∧
    (i.run.exit = j.run.exit ∧ i.run.stderr = j.run.stderr) ∧
    (c.format = .text → (∀ x, .surrogate x ∉ s) →
      Raw.ofText j.run.stdout = s.lexemes.flatMap Piece.line ∧
      i.run.stdout = j.run.stdout ++ "EOF\tEOF\n".toList) ∧
    (c.format = .text → (∃ x, .surrogate x ∈ s) →
      i.run.exit.number = 3 ∧ i.run.stdout = [] ∧ j.run.stdout = []) ∧
    (c.format = .json → ∃ items, items = s.lexemes.map Json.ofPiece ∧
      Json.read? j.run.stdout = some (.array items) ∧
      Json.read? i.run.stdout = some (.array (items ++ [object]))) ∧
    s.lexemes.count (.token word) = s.pieces.count (.token word) := by
  intro word name object
  obtain ⟨hc, hj⟩ := h.scans hs
  have hw : s.lexemes.count (.token word) = s.pieces.count (.token word) := by
    have he : [Piece.token Token.eof].count (.token word) = 0 := by decide
    rw [Raw.pieces, List.count_append, he, Nat.add_zero]
  by_cases hp : s.WritableAs c.format
  · obtain ⟨t, ht⟩ := output_of_writable (c := c) hp
    obtain ⟨u, hu⟩ := output_of_writable (c := withoutEnd c) hp
    have hi := hs.run_of_output ht
    have hj' := hj.run_of_output hu
    rw [hi, hj']
    refine ⟨hj, ⟨rfl, rfl⟩, ?_, ?_, ?_, hw⟩
    · intro hf _
      refine ⟨?_, Raw.ofText_injective ?_⟩
      · rw [← hu, output_text (withoutEnd c) s hf, shownPieces_withoutEnd]
      · rw [← ht, output_withEnd hf hc, hu, Raw.ofText, Raw.ofText, Raw.ofText, List.map_append]
    · intro hf hx
      exact absurd hp (Raw.not_writableAs_iff.2 ⟨hf, hx⟩)
    · intro hf
      refine ⟨_, rfl, ?_, ?_⟩
      · rw [read?_output (c := withoutEnd c) hf hu, shownPieces_withoutEnd]
        rfl
      · rw [read?_output hf ht, shownPieces_withEnd hc, Json.ofPieces, List.map_append]
        rfl
  · obtain ⟨hf, u, hu⟩ := written_of_not_writable (c := withoutEnd c) hp
    have hf : c.format = .text := hf
    have hv : (output c s).written = .error u := by
      rw [output_withEnd hf hc]
      exact Raw.written_append_ofText hu _
    rw [hs.run_of_unwritable hv, hj.run_of_unwritable hu]
    refine ⟨hj, ⟨rfl, rfl⟩, ?_, fun _ _ => ⟨rfl, rfl, rfl⟩, ?_, hw⟩
    · intro _ hx
      exact absurd (fun _ => hx) hp
    · intro hg
      exact absurd (hf.symm.trans hg) (by decide)

theorem Invocation.no_eof_keeps_word :
    let s := Raw.ofText "EOF".toList
    let i : Invocation := ⟨Raw.ofStrings ["-e", "EOF", "-fJSON"], {}, [], fun _ => none⟩
    let j : Invocation := { i with arguments := Raw.ofText "--no-eof".toList :: i.arguments }
    let object (kind : String) : Json.Value := Json.ofStrings (Raw.ofText kind.toList, s)
    i.LeavesEnd j ∧ i.Scans (.expr s) { format := .json } s ∧
    Json.read? j.run.stdout = some (.array [object "IDENT"]) ∧
    Json.read? i.run.stdout = some (.array [object "IDENT", object "EOF"]) := by
  intro s i j object
  have ht : Typed.ofArguments i.arguments =
      .ok { expr := some s, format := some (Raw.ofText "JSON".toList) } := rfl
  have h : i.LeavesEnd j := LeavesEnd.of_arguments rfl ht
  have hs : i.Scans (.expr s) { format := .json } s := ⟨⟨_, _, rfl, rfl, rfl⟩, rfl⟩
  obtain ⟨items, hi, hj, hk⟩ := (no_eof_removes_end h hs).2.2.2.2.1 rfl
  have hn : next? "EOF".toList = some ⟨[], ⟨.ident, "EOF".toList⟩, []⟩ := rfl
  have hl : s.lexemes = [.token ⟨.ident, "EOF".toList⟩] := by
    rw [Raw.lexemes_ofText, lexemes_of_next hn, lexemes_of_gap (List.forall_mem_nil _)]
    rfl
  rw [hi, hl] at hj hk
  exact ⟨h, hs, hj, hk⟩

/-- Neither run prints anything, so that the end token is not what they differ in. -/
theorem Invocation.no_eof_of_surrogate_same :
    let s : Raw := [.surrogate ⟨0x4ff⟩]
    let i : Invocation := ⟨[Raw.ofText "-e".toList, s], {}, [], fun _ => none⟩
    let j : Invocation := { i with arguments := Raw.ofText "--no-eof".toList :: i.arguments }
    i.LeavesEnd j ∧ i.Scans (.expr s) {} s ∧
    i.run.stdout ≠ j.run.stdout ++ "EOF\tEOF\n".toList := by
  intro s i j
  have h : i.LeavesEnd j := LeavesEnd.of_arguments (t := { expr := some s }) rfl rfl
  have hi : i.Scans (.expr s) {} s := ⟨⟨_, _, rfl, rfl, rfl⟩, rfl⟩
  refine ⟨h, hi, ?_⟩
  rw [hi.run_of_unwritable (written_output_surrogate rfl ⟨0x4ff⟩)]
  exact (List.append_ne_nil_of_right_ne_nil _ (by decide)).symm

end Removal

end Lexeme.Command
