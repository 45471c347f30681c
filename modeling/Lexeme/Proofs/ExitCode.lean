import Lexeme.Proofs.Decoding
import Lexeme.Proofs.Outcome

/-!
What a run exits with. Once the arguments are in order, one rule of precedence decides: two sources,
then the environment, then bytes that are no encoding of a text, then a surrogate that is to be
printed as text, then a foreign point in a strict run. The main statement is `exit_by_precedence`.
-/

namespace Lexeme.Command

section Decoding

/-- The bytes that a source is decoded from; a text among the arguments is taken as it is. -/
def Source.bytes? (input : Text.Utf8.Bytes) : Source → Option Text.Utf8.Bytes
  | expr _ => none
  | file _ bytes => some bytes
  | .input => some input

/-- The bytes are there, but they are no encoding of a text. -/
def Source.Undecodable (source : Source) (input : Text.Utf8.Bytes) : Prop :=
  ∃ bytes, source.bytes? input = some bytes ∧ ∀ s, Text.Utf8.encode s ≠ bytes

theorem Source.undecodable_iff {source : Source} {input bytes : Text.Utf8.Bytes}
    (h : source.bytes? input = some bytes) :
    source.Undecodable input ↔ ∀ s, Text.Utf8.encode s ≠ bytes := by
  simp [Undecodable, h]

theorem Source.decoded_cases {source : Source} {input bytes : Text.Utf8.Bytes}
    (h : source.bytes? input = some bytes) :
    (source.Undecodable input ∧ ∃ f, text.decoded bytes = .error (.undecodable f)) ∨
    (¬ source.Undecodable input ∧ ∃ s, text.decoded bytes = .ok s) := by
  rw [undecodable_iff h]
  cases hd : Text.Utf8.decode bytes with
  | error f =>
    left
    refine ⟨?_, f, by simp only [text.decoded, hd]⟩
    intro s hs
    rw [Text.Utf8.decode_eq_ok_iff.2 hs] at hd
    exact absurd hd (by simp)
  | ok s =>
    right
    refine ⟨?_, Raw.ofText s.withUnixLines, by simp only [text.decoded, hd]⟩
    intro hn
    exact hn s (Text.Utf8.decode_eq_ok_iff.1 hd)

theorem Source.text_cases (source : Source) (input : Text.Utf8.Bytes) :
    (source.Undecodable input ∧ ∃ f, source.text input = .error (.undecodable f)) ∨
    (¬ source.Undecodable input ∧ ∃ s, source.text input = .ok s) := by
  cases source with
  | expr s =>
    right
    refine ⟨?_, s, rfl⟩
    intro h
    obtain ⟨bytes, hb, -⟩ := h
    exact absurd hb (by simp [bytes?])
  | file name bytes => exact decoded_cases rfl
  | input => exact decoded_cases rfl

/-- Only a text from the command line can hold a surrogate. -/
theorem Source.eq_expr_of_surrogate {source : Source} {input : Text.Utf8.Bytes} {s : Raw}
    (h : source.text input = .ok s) {x : Surrogate} (hx : .surrogate x ∈ s) : source = .expr s := by
  have decoded {bytes : Text.Utf8.Bytes} (hd : text.decoded bytes = .ok s) : False := by
    rw [text.decoded] at hd
    split at hd
    · obtain rfl := Except.ok.inj hd
      exact Raw.surrogate_not_mem_ofText _ x hx
    · exact absurd hd (by simp)
  cases source with
  | expr u => rw [Except.ok.inj h]
  | file name bytes => exact (decoded h).elim
  | input => exact (decoded h).elim

theorem Source.not_writable_iff {source : Source} {input : Text.Utf8.Bytes} {s : Raw}
    (h : source.text input = .ok s) {f : Format} :
    ¬ s.WritableAs f ↔ f = .text ∧ ∃ u, source = .expr u ∧ ∃ x, .surrogate x ∈ u := by
  rw [Raw.not_writableAs_iff]
  refine and_congr_right fun _ => ⟨?_, ?_⟩
  · rintro ⟨x, hx⟩
    exact ⟨s, eq_expr_of_surrogate h hx, x, hx⟩
  · rintro ⟨u, rfl, hu⟩
    obtain rfl : u = s := Except.ok.inj h
    exact hu

end Decoding

section Exit

variable {i : Invocation}

open Classical in
theorem Invocation.Scans.exit_eq {source : Source} {c : Settings} {s : Raw}
    (h : i.Scans source c s) :
    i.run.exit =
      (if ¬ s.WritableAs c.format then .internalError
      else if c.strict ∧ ∃ p ∈ s, p.isForeign then .illegalCharacter
      else .success) ∧
    (i.run.exit = .internalError → i.run.stdout = []) := by
  rcases output_cases c s with ⟨hw, t, ht⟩ | ⟨hw, u, hu⟩
  · rw [h.run_of_output ht, if_neg (not_not.2 hw)]
    constructor
    · rfl
    · intro hx
      split at hx <;> exact absurd hx (by simp)
  · rw [h.run_of_unwritable hu, if_pos hw]
    exact ⟨rfl, fun _ => rfl⟩

theorem Invocation.Scans.exit_number_ne {source : Source} {c : Settings} {s : Raw}
    (h : i.Scans source c s) : i.run.exit.number ≠ 2 := by
  classical
  rw [h.exit_eq.1]
  split_ifs <;> simp [ExitCode.number]

variable {t : Typed} {file : Option (Raw × Text.Utf8.Bytes)}

open Classical in
theorem Invocation.exit_by_precedence (h : i.Admits t file) :
    let source := t.source file
    i.run.exit.number =
      (if file.isSome ∧ t.expr.isSome then 2
      else if ∀ e, i.environment.settings ≠ .ok e then 2
      else if source.Undecodable i.input then 3
      else if ∃ e s, i.environment.settings = .ok e ∧ (t.flags.over e).format = .text ∧
          source = .expr s ∧ ∃ x, .surrogate x ∈ s then 3
      else if ∃ e s, i.environment.settings = .ok e ∧ source.text i.input = .ok s ∧
          t.strict.getD e.strict = true ∧ ∃ p ∈ s, p.isForeign = true then 1
      else 0) ∧
    (i.run.exit.number = 2 ∨ i.run.exit.number = 3 → i.run.stdout = []) := by
  intro source
  have hp := h.plan
  by_cases hb : file.isSome = true ∧ t.expr.isSome = true
  · rw [if_pos hb] at hp
    have hr : i.run = UsageFault.twoSources.outcome := by simp only [run, hp]
    rw [hr, if_pos hb]
    exact ⟨rfl, fun _ => rfl⟩
  rw [if_neg hb] at hp
  rw [if_neg hb]
  cases he : i.environment.settings with
  | error refusal =>
    rw [run_of_refused hp he, if_pos (by simp)]
    exact ⟨rfl, fun _ => rfl⟩
  | ok e =>
    rw [if_neg (by simp)]
    rcases source.text_cases i.input with ⟨hu, f, hs⟩ | ⟨hu, s, hs⟩
    · obtain ⟨stderr, hr⟩ := run_of_undecodable hp he hs
      rw [hr, if_pos hu]
      exact ⟨rfl, fun _ => rfl⟩
    · have hi : i.Scans source (t.flags.over e) s := ⟨⟨t.flags, e, hp, he, rfl⟩, hs⟩
      obtain ⟨hx, ho⟩ := hi.exit_eq
      have hw : (∃ e' s', (.ok e : Except Refusal Settings) = .ok e' ∧
          (t.flags.over e').format = .text ∧ source = .expr s' ∧ ∃ x, .surrogate x ∈ s') ↔
          ¬ s.WritableAs (t.flags.over e).format := by
        simp [Source.not_writable_iff hs]
      have hf : (∃ e' s', (.ok e : Except Refusal Settings) = .ok e' ∧
          source.text i.input = .ok s' ∧
          t.strict.getD e'.strict = true ∧ ∃ p ∈ s', p.isForeign = true) ↔
          (t.flags.over e).strict = true ∧ ∃ p ∈ s, p.isForeign = true := by
        simp [hs, Flags.over, Typed.flags]
      rw [if_neg hu]
      simp only [hw, hf]
      constructor
      · rw [hx]
        split_ifs <;> rfl
      · intro hn
        have hn := hn.resolve_left hi.exit_number_ne
        cases hc : i.run.exit with
        | internalError => exact ho hc
        | success | illegalCharacter | invalidArguments =>
          exact absurd hn (by simp [hc, ExitCode.number])

/-- A flag does not save a run from the variable that it overrides, and bytes that are no encoding
of a text are not come to. -/
theorem Invocation.exit_of_quiet :
    let i : Invocation :=
      ⟨Raw.ofStrings ["--quiet"], { verbose := some (Raw.ofText "maybe".toList) }, [0xff],
        fun _ => none⟩
    let t : Typed := { verbose := some false }
    i.Admits t none ∧ (∀ e, i.environment.settings ≠ .ok e) ∧ (t.source none).Undecodable i.input ∧
    i.run.exit.number = 2 ∧ i.run.stdout = [] := by
  intro i t
  have ha : i.Admits t none := ⟨rfl, rfl, by simp [t], rfl, by simp⟩
  have hs : i.environment.settings =
      .error (.unclearFlag .verbose (Raw.ofText "maybe".toList)) := rfl
  have he : ∀ e, i.environment.settings ≠ .ok e := by simp [hs]
  have hu : (t.source none).Undecodable i.input := by
    have hd : Text.Utf8.decode [0xff] = .error ⟨0, [0xff], .badStart⟩ := rfl
    refine ⟨[0xff], rfl, ?_⟩
    intro s h
    exact absurd (Text.Utf8.decode_eq_ok_iff.2 h) (by simp [hd])
  have h := exit_by_precedence ha
  have hn : i.run.exit.number = 2 := h.1.trans ((if_neg (by simp)).trans (if_pos he))
  exact ⟨ha, he, hu, hn, h.2 (.inl hn)⟩

/-- The arguments, the environment and the source are in order, and the run is not strict. -/
theorem Invocation.exit_of_surrogate :
    let s : Raw := [.surrogate ⟨0x4ff⟩]
    let i : Invocation := ⟨[Raw.ofText "-e".toList, s], {}, [], fun _ => none⟩
    let t : Typed := { expr := some s }
    i.Admits t none ∧ i.environment.settings = .ok {} ∧ (t.source none).text i.input = .ok s ∧
    t.strict.getD ({} : Settings).strict = false ∧ i.run.exit.number ≠ 0 := by
  intro s i t
  have ha : i.Admits t none := ⟨rfl, rfl, by simp [t], rfl, by simp⟩
  have hi : i.Scans (.expr s) {} s := ⟨⟨_, _, rfl, rfl, rfl⟩, rfl⟩
  have hu := written_output_surrogate (c := {}) rfl ⟨0x4ff⟩
  exact ⟨ha, rfl, rfl, rfl, by simp [hi.run_of_unwritable hu, ExitCode.number]⟩

end Exit

end Lexeme.Command
