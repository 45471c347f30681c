import Lexeme.Proofs.Outcome
import Lexeme.Proofs.Variables

/-!
What is written when a strict run meets a foreign point and when a flag is unclear. Both notices hold
text that anyone may have put there, and hold it quoted, so that they come out whole, in two lines,
by `Outcome.reportsWhole`. The main statement is `reports_whole`.
-/

namespace Lexeme

open Text (isPrintable)

theorem unclearFlag_printable (x : Variable) (value : Raw) :
    (Refusal.unclearFlag x value).notice.Printable
      ("invalid boolean value ".toList ++ value.quoted ++ " for ".toList ++ x.name)
      "use 1/0, true/false, yes/no or on/off".toList := by
  refine ⟨rfl, ?_, rfl, by decide⟩
  have hf : "invalid boolean value ".toList.all isPrintable = true := by decide
  have hm : " for ".toList.all isPrintable = true := by decide
  have hx : x.name.all isPrintable = true := by cases x <;> decide
  have hq : value.quoted.all isPrintable = true :=
    List.all_eq_true.2 fun _ => Raw.isPrintable_of_mem_quoted
  rw [List.all_append, List.all_append, List.all_append, hf, hq, hm, hx]
  rfl

theorem Environment.refuses_flag {e : Environment} {x : Variable}
    (hx : x = .strict ∨ x = .verbose) (h : ¬ e.Accepts x) :
    ∃ y value, e.settings = .error (.unclearFlag y value) := by
  simp only [settings_eq_error_iff]
  by_cases hs : e.Accepts .strict
  · have hb : ¬ e.Accepts .verbose := by
      rcases hx with rfl | rfl
      · exact absurd hs h
      · exact h
    cases hv : e.verbose with
    | none => exact absurd ⟨false, hv ▸ .unset⟩ hb
    | some value => exact ⟨.verbose, _, .verbose hs hb hv⟩
  · cases hv : e.strict with
    | none => exact absurd ⟨false, hv ▸ .unset⟩ hs
    | some value => exact ⟨.strict, _, .strict hs hv⟩

namespace Command

/-- The error output is a message, nothing of it lost, in two lines of printable characters. -/
structure Outcome.ReportsWhole (o : Outcome) (message : Raw) : Prop where
  stderr : Raw.ofText o.stderr = message ++ [.char '\n']
  kept : message.withoutControlSequences = message
  lines : TwoLines o.stderr
  printable : ∀ c ∈ o.stderr, c = '\n' ∨ isPrintable c = true

theorem Outcome.reportsWhole {o : Outcome} {f : Fault} {n : Notice} {description hint : Text}
    (ho : o.stderr = f.report false) (hf : f.notice? = some n) (h : n.Printable description hint) :
    o.ReportsWhole f.message := by
  have hp : Raw.ofText (Notice.lines description hint ++ ['\n']) = n.text ++ [.char '\n'] := by
    rw [h.text_eq, Raw.ofText, Raw.ofText, List.map_append]
    rfl
  rw [Fault.report_of_notice hf, h.printed, Raw.escaped_ofText] at ho
  rw [Fault.message_of_notice hf]
  refine ⟨ho ▸ hp, List.append_cancel_right (h.printed.trans hp), ho ▸ h.twoLines, ?_⟩
  intro c hc
  rw [ho, List.mem_append, List.mem_singleton] at hc
  rcases hc with hc | hc
  · exact h.mem_lines c hc
  · exact .inl hc

namespace Invocation

variable {i : Invocation} {source : Source} {c : Settings} {s : Raw}

theorem Scans.strict_fails (h : i.Scans source c s) (hs : c.strict = true)
    (hv : c.verbose = false) (hx : i.run.exit.number = 1) :
    ∃ p, List.find? Point.isForeign s = some p ∧ i.run.stderr = foreignReport p := by
  rcases output_cases c s with ⟨-, t, ht⟩ | ⟨-, u, hu⟩
  · have hr := h.run_of_output ht
    cases hf : List.find? Point.isForeign s with
    | none =>
      have hn : ¬ ∃ p ∈ s, p.isForeign := by simpa using List.find?_eq_none.1 hf
      simp [hr, hn, ExitCode.number] at hx
    | some p =>
      refine ⟨p, rfl, ?_⟩
      simp [hr, strictReport, hs, hv, hf]
  · simp [h.run_of_unwritable hu, ExitCode.number] at hx

theorem reports_whole (i : Invocation) :
    (∀ source c s, i.Scans source c s → c.strict = true → c.verbose = false →
      i.run.exit.number = 1 →
      ∃ f, Piece.check s.pieces = .error f ∧ f.exitCode = .illegalCharacter ∧
        (∀ t, s = Raw.ofText t → check (tokenize t) = .error f) ∧
        i.run.ReportsWhole f.message) ∧
    (∀ r, i.plan = .scan r → ∀ x : Variable, x = .strict ∨ x = .verbose →
      ¬ i.environment.Accepts x →
      ∃ refusal, i.environment.settings = .error refusal ∧
        i.run.ReportsWhole refusal.fault.message) := by
  constructor
  · intro source c s h hs hv hx
    obtain ⟨p, hf, hr⟩ := h.strict_fails hs hv hx
    have hc := s.check_pieces
    rw [hf] at hc
    refine ⟨_, hc, by cases p <;> rfl, ?_, ?_⟩
    · rintro t rfl
      rw [Raw.find?_isForeign_ofText] at hf
      obtain ⟨ch, hn, rfl⟩ := Option.map_eq_some_iff.1 hf
      rw [check_tokenize, hn]
      rfl
    · rw [← Fault.report_ofPoint p false] at hr
      exact Outcome.reportsWhole hr (Fault.notice?_ofPoint p) (foreignNotice_printable p)
  · intro r hp x hx ha
    obtain ⟨y, value, he⟩ := Environment.refuses_flag hx ha
    have hr : i.run.stderr = (Refusal.unclearFlag y value).fault.report false := by
      rw [run_of_refused hp he]
    exact ⟨_, he, Outcome.reportsWhole hr rfl (unclearFlag_printable y value)⟩

/-- A control sequence in a source, and one with a line end and both quotes in a flag. -/
theorem reports_red_whole :
    let s := Text.ControlSequence.escape :: "[31m".toList
    let flag := Raw.ofText (Text.ControlSequence.escape :: "[31m\n'\"on".toList)
    let illegal := Fault.illegalNotice '\x1b'
    let unclear := (Refusal.unclearFlag .verbose flag).notice
    let i : Invocation :=
      ⟨[Raw.ofText "-e".toList, Raw.ofText s, Raw.ofText "--strict".toList], {}, [], fun _ => none⟩
    let j : Invocation :=
      ⟨[Raw.ofText "-e".toList, Raw.ofText s], { verbose := some flag }, [], fun _ => none⟩
    illegal.description = Raw.ofText "illegal character '\\x1b' (U+001B)".toList ∧
    unclear.description = Raw.ofText
      "invalid boolean value '\\x1b[31m\\n\\'\"on' for SCRIPTLEX_VERBOSE".toList ∧
    (i.Scans (.expr (Raw.ofText s)) { strict := true } (Raw.ofText s) ∧ i.run.exit.number = 1 ∧
      i.run.ReportsWhole illegal.text) ∧
    ((∃ r, j.plan = .scan r) ∧ ¬ j.environment.Accepts .verbose ∧
      j.run.ReportsWhole unclear.text) := by
  intro s flag illegal unclear i j
  have hs : i.Scans (.expr (Raw.ofText s)) { strict := true } (Raw.ofText s) :=
    ⟨⟨_, _, rfl, rfl, rfl⟩, rfl⟩
  have hk : check (tokenize s) = .error (.illegal ⟨.illegal, ['\x1b']⟩ '\x1b') := check_tokenize s
  have hx : i.run.exit.number = 1 := by
    obtain ⟨t, ht⟩ := output_of_writable (c := { strict := true })
      fun _ => Raw.surrogate_not_mem_ofText s
    have hf : ∃ p ∈ Raw.ofText s, p.isForeign :=
      ⟨.char '\x1b', List.mem_cons_self, by decide⟩
    simp [hs.run_of_output ht, hf, ExitCode.number]
  have he : j.environment.settings = .error (.unclearFlag .verbose flag) := rfl
  have ha : ¬ j.environment.Accepts .verbose := by
    have hr : Flag.read .verbose (some flag) = .error (.unclearFlag .verbose flag) := rfl
    exact not_exists.2 (Flag.read_eq_error_iff.1 hr).1
  obtain ⟨f, -, -, hc, hr⟩ := (reports_whole i).1 _ _ _ hs rfl rfl hx
  obtain ⟨refusal, hf, hw⟩ := (reports_whole j).2 _ rfl .verbose (.inr rfl) ha
  obtain rfl := Except.error.inj (hk.symm.trans (hc s rfl))
  obtain rfl := Except.error.inj (he.symm.trans hf)
  refine ⟨congrArg Raw.ofText ?_, congrArg Raw.ofText ?_, ⟨hs, hx, hr⟩, ⟨_, rfl⟩, ha, hw⟩
  · decide
  · decide

end Invocation
end Command

end Lexeme
