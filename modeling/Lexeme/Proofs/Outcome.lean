import Lexeme.Proofs.Notices
import Lexeme.Proofs.Running
import Lexeme.Proofs.Shown

/-!
What a scan leaves on each channel. If its output can be written, all of it is printed, a verbose run
gives an account of the scan on the error output, and a strict run reports the first foreign point
after everything else, by `scanned_of_writable`. If not, the run ends where it would print, having
printed nothing, and whether it is strict has not come up, by `scanned_of_unwritable`. So being
strict or verbose only adds to what a run does without, as `strict_and_verbose_only_add` says.
-/

namespace Lexeme.Command

/-- The summary of a scan by its three numbers, without the line end. -/
def counts (characters tokens illegal : Nat) : Text :=
  "Scanned ".toList ++ Text.decimal characters ++ " characters: ".toList ++
    Text.decimal tokens ++ " tokens, ".toList ++ Text.decimal illegal ++ " illegal".toList

/-- The account that a verbose run gives of a scan: its log, and then its numbers. -/
def account (s : Raw) : Text :=
  (trace s).flatMap Event.line ++
    (counts s.length s.pieces.length (s.pieces.countP fun p => p.kind = .illegal) ++ ['\n'])

/-- What a run says of the first foreign point. One that is not strict says nothing. -/
def strictReport (strict : Bool) (s : Raw) : Text :=
  if strict then (List.find? Point.isForeign s).elim [] foreignReport else []

section Scan

theorem escape_not_mem_counts (characters tokens illegal : Nat) :
    Text.ControlSequence.escape ∉ counts characters tokens illegal := by
  -- Its equation would have the words of the summary evaluated.
  delta counts
  simp only [List.mem_append, escape_not_mem_decimal, or_false]
  decide

theorem summary_eq (s : Raw) (ps : List Piece) :
    summary s ps =
      counts s.length ps.length (ps.countP fun p => p.kind = .illegal) ++ ['\n'] :=
  Text.printed_of_not_escape (escape_not_mem_counts _ _ _)

theorem find?_isForeign_isSome_iff {s : Raw} :
    (List.find? Point.isForeign s).isSome ↔ ∃ p ∈ s, p.isForeign := List.find?_isSome

variable {c : Settings} {s : Raw}

theorem scanned_of_writable {t : Text} (h : output c s = Raw.ofText t) (before : Text) :
    scanned c before s =
      { exit := if c.strict ∧ ∃ p ∈ s, p.isForeign then .illegalCharacter else .success
        stdout := t
        stderr := before ++ (if c.verbose then account s else []) ++ strictReport c.strict s } := by
  have hl : (before ++ if c.verbose then (trace s).flatMap Event.line else []) ++
      (if c.verbose then summary s s.pieces else []) =
        before ++ if c.verbose then account s else [] := by
    cases c.verbose <;> simp [account, summary_eq]
  rw [scanned, Raw.written_eq_ok_iff.2 h]
  simp only [hl, strictReport, ← find?_isForeign_isSome_iff]
  cases c.strict with
  | false => simp
  | true =>
    have hc := s.check_pieces
    cases hf : List.find? Point.isForeign s with
    | none =>
      rw [hf] at hc
      simp [hc]
    | some p =>
      rw [hf] at hc
      have hx : (Fault.ofPiece (.ofPoint p)).exitCode = .illegalCharacter := by cases p <;> rfl
      simp [hc, hx, Fault.report_ofPoint]

theorem scanned_of_unwritable {u : Raw.Unwritable} (h : (output c s).written = .error u)
    (before : Text) :
    scanned c before s =
      { exit := .internalError
        stderr := before ++ (if c.verbose then (trace s).flatMap Event.line else []) ++
          (Fault.unwritable u).report c.verbose } := by
  rw [scanned, h]
  rfl

end Scan

section Runs

/-- A run comes as far as to scan a text, which it has from a source, under settings. -/
structure Invocation.Scans (i : Invocation) (source : Source) (c : Settings) (s : Raw) : Prop where
  plan : ∃ flags e, i.plan = .scan ⟨source, flags⟩ ∧ i.environment.settings = .ok e ∧
    flags.over e = c
  text : source.text i.input = .ok s

variable {source : Source} {c : Settings} {s : Raw}

namespace Invocation.Scans

variable {i j : Invocation}

theorem run_eq (h : i.Scans source c s) :
    i.run = scanned c (if c.verbose then source.announcement else []) s := by
  obtain ⟨⟨flags, e, hp, he, rfl⟩, hs⟩ := h
  simp only [Invocation.run, hp, Request.run, he, Request.runWith, hs]

theorem run_of_output (h : i.Scans source c s) {t : Text} (ht : output c s = Raw.ofText t) :
    i.run =
      { exit := if c.strict ∧ ∃ p ∈ s, p.isForeign then .illegalCharacter else .success
        stdout := t
        stderr := (if c.verbose then source.announcement ++ account s else []) ++
          strictReport c.strict s } := by
  rw [h.run_eq, scanned_of_writable ht]
  cases c.verbose <;> rfl

theorem run_of_unwritable (h : i.Scans source c s) {u : Raw.Unwritable}
    (hu : (output c s).written = .error u) :
    i.run =
      { exit := .internalError
        stderr := (if c.verbose then source.announcement ++ (trace s).flatMap Event.line else []) ++
          ("Internal error: ".toList ++ u.text ++ ['\n']) ++
          if c.verbose then Fault.stepsLine else [] } := by
  rw [h.run_eq, scanned_of_unwritable hu, Fault.report_unwritable]
  cases c.verbose <;> simp

/-- Texts of the same pieces, scanned under the same settings, are told apart by what a verbose run
writes and by nothing else. -/
theorem agree {other : Source} {u : Raw} (hi : i.Scans source c s) (hj : j.Scans other c u)
    (h : s.pieces = u.pieces) :
    i.run.exit = j.run.exit ∧ i.run.stdout = j.run.stdout ∧ (c.verbose = false → i.run = j.run) := by
  have ho : output c s = output c u := by rw [output, output, h]
  rw [hi.run_eq, hj.run_eq, scanned, scanned, ho, h]
  cases (output c u).written with
  | error f => simp +contextual
  | ok t =>
    cases if c.strict then Piece.check u.pieces else .ok u.pieces <;> simp +contextual

end Invocation.Scans

theorem Invocation.strict_and_verbose_only_add (source : Source) (c : Settings) (s : Raw) :
    (∀ lenient strict : Invocation, lenient.Scans source { c with strict := false } s →
      strict.Scans source { c with strict := true } s →
      (s.WritableAs c.format →
        strict.run.stdout = lenient.run.stdout ∧ lenient.run.exit.number = 0 ∧
        (strict.run.exit.number = 1 ↔ ∃ p ∈ s.pieces, p.kind = .illegal) ∧
        match s.pieces.find? fun p => p.kind = .illegal with
        | some p => ∃ x, p.text = [x] ∧
            strict.run.stderr = lenient.run.stderr ++ foreignReport x
        | none => strict.run = lenient.run) ∧
      (¬ s.WritableAs c.format →
        strict.run = lenient.run ∧ lenient.run.exit.number = 3 ∧ lenient.run.stdout = [])) ∧
    (∀ quiet verbose : Invocation, quiet.Scans source { c with verbose := false } s →
      verbose.Scans source { c with verbose := true } s →
      verbose.run.stdout = quiet.run.stdout ∧ verbose.run.exit = quiet.run.exit ∧
      (s.WritableAs c.format → quiet.run.stderr <:+ verbose.run.stderr) ∧
      (¬ s.WritableAs c.format →
        verbose.run.stderr = source.announcement ++ (trace s).flatMap Event.line ++
          quiet.run.stderr ++ Fault.stepsLine)) := by
  have hl (b : Bool) : output { c with strict := b } s = output c s := rfl
  have hv (b : Bool) : output { c with verbose := b } s = output c s := rfl
  rcases output_cases c s with ⟨hw, t, ht⟩ | ⟨hw, u, hu⟩
  · constructor
    · intro lenient strict hi hj
      have hi := hi.run_of_output ((hl false).trans ht)
      have hj := hj.run_of_output ((hl true).trans ht)
      refine ⟨fun _ => ?_, fun hn => absurd hw hn⟩
      rw [hi, hj, s.exists_illegal_iff, s.find?_illegal_pieces]
      refine ⟨rfl, rfl, ?_, ?_⟩
      · by_cases hf : ∃ p ∈ s, p.isForeign <;> simp [hf, ExitCode.number]
      · cases hf : List.find? Point.isForeign s with
        | none =>
          have hn : ¬ ∃ p ∈ s, p.isForeign := by simpa using List.find?_eq_none.1 hf
          simp [strictReport, hf, hn]
        | some x => exact ⟨x, Piece.text_ofPoint x, by simp [strictReport, hf]⟩
    · intro quiet verbose hi hj
      have hi := hi.run_of_output ((hv false).trans ht)
      have hj := hj.run_of_output ((hv true).trans ht)
      rw [hi, hj]
      refine ⟨rfl, rfl, fun _ => ?_, fun hn => absurd hw hn⟩
      exact List.suffix_append _ _
  · constructor
    · intro lenient strict hi hj
      have hi := hi.run_of_unwritable ((congrArg Raw.written (hl false)).trans hu)
      have hj := hj.run_of_unwritable ((congrArg Raw.written (hl true)).trans hu)
      rw [hi, hj]
      exact ⟨fun h => absurd h hw, fun _ => ⟨rfl, rfl, rfl⟩⟩
    · intro quiet verbose hi hj
      have hi := hi.run_of_unwritable ((congrArg Raw.written (hv false)).trans hu)
      have hj := hj.run_of_unwritable ((congrArg Raw.written (hv true)).trans hu)
      rw [hi, hj]
      refine ⟨rfl, rfl, fun h => absurd h hw, fun _ => ?_⟩
      simp

theorem Invocation.strict_adds_report :
    let s := Raw.ofText "a#".toList
    let i (flags : List String) : Invocation :=
      ⟨Raw.ofStrings ("-e" :: "a#" :: flags), { verbose := some (Raw.ofText "on".toList) }, [],
        fun _ => none⟩
    (i ["--quiet"]).Scans (.expr s) {} s ∧
    (i ["--quiet", "--strict"]).Scans (.expr s) { strict := true } s ∧
    (i ["--strict"]).Scans (.expr s) { strict := true, verbose := true } s ∧
    (i ["--quiet", "--strict"]).run.stdout = (i ["--quiet"]).run.stdout ∧
    (i ["--quiet", "--strict"]).run.stderr =
      (i ["--quiet"]).run.stderr ++ foreignReport (.char '#') ∧
    (i ["--quiet", "--strict"]).run.stderr <:+ (i ["--strict"]).run.stderr := by
  intro s i
  have hl : (i ["--quiet"]).Scans (.expr s) {} s := ⟨⟨_, _, rfl, rfl, rfl⟩, rfl⟩
  have hs : (i ["--quiet", "--strict"]).Scans (.expr s) { strict := true } s :=
    ⟨⟨_, _, rfl, rfl, rfl⟩, rfl⟩
  have hv : (i ["--strict"]).Scans (.expr s) { strict := true, verbose := true } s :=
    ⟨⟨_, _, rfl, rfl, rfl⟩, rfl⟩
  have hw : s.WritableAs .text := fun _ => Raw.surrogate_not_mem_ofText _
  have hf : s.pieces.find? (fun p => p.kind = .illegal) = some (.ofPoint (.char '#')) :=
    s.find?_illegal_pieces
  obtain ⟨ho, -, -, hr⟩ := ((strict_and_verbose_only_add (.expr s) {} s).1 _ _ hl hs).1 hw
  obtain ⟨-, -, hq, -⟩ :=
    (strict_and_verbose_only_add (.expr s) { strict := true } s).2 _ _ hs hv
  rw [hf] at hr
  obtain ⟨x, hx, hr⟩ := hr
  obtain rfl : .char '#' = x := List.singleton_inj.1 hx
  exact ⟨hl, hs, hv, ho, hr, hq hw⟩

/-- The output of a surrogate as text cannot be written: not even a run that is not strict ends well,
and a verbose one goes on after the report. -/
theorem Invocation.lenient_run_of_surrogate_fails :
    let s : Raw := [.surrogate ⟨0x4ff⟩]
    let i (flags : List String) : Invocation :=
      ⟨Raw.ofText "-e".toList :: s :: Raw.ofStrings flags, {}, [], fun _ => none⟩
    (i []).Scans (.expr s) {} s ∧ (i ["-v"]).Scans (.expr s) { verbose := true } s ∧
    (i []).run.exit.number ≠ 0 ∧ ¬ (i []).run.stderr <:+ (i ["-v"]).run.stderr := by
  intro s i
  have hq : (i []).Scans (.expr s) {} s := ⟨⟨_, _, rfl, rfl, rfl⟩, rfl⟩
  have hv : (i ["-v"]).Scans (.expr s) { verbose := true } s := ⟨⟨_, _, rfl, rfl, rfl⟩, rfl⟩
  have hi := hq.run_of_unwritable (written_output_surrogate rfl ⟨0x4ff⟩)
  have hj := hv.run_of_unwritable (written_output_surrogate rfl ⟨0x4ff⟩)
  have hd : "allowed\n".toList <:+ (i []).run.stderr := by
    rw [hi]
    decide
  have hl : Fault.stepsLine <:+ (i ["-v"]).run.stderr := by
    rw [hj]
    exact List.suffix_append _ _
  refine ⟨hq, hv, by simp [hi, ExitCode.number], ?_⟩
  intro h
  exact absurd (List.suffix_of_suffix_length_le (hd.trans h) hl (by decide)) (by decide)

end Runs

end Lexeme.Command
