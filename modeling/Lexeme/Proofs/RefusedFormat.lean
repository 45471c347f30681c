import Lexeme.Proofs.Reports

/-!
What is written when a format is refused. The notice holds the value, in lower case, as it is and not
quoted, so that the value shows in the shape of the report: its control sequences are lost on the
way and its surrogates come out as numbers, by `report_unknownFormat`, and its line ends are lines of
the report. The apostrophe and the line end after the value complete no sequence that it begins. The
main statement is `refused_format_report`, which says for which values the report is whole and when
two of them have the same one.
-/

namespace Lexeme

open Text Text.ControlSequence

theorem TwoLines.count_eq {s : Text} (h : TwoLines s) : s.count '\n' = 2 := by
  obtain ⟨fault, hint, hf, hh, rfl⟩ := h
  have he : "error: ".toList.count '\n' = 0 := by decide
  have hi : "hint: ".toList.count '\n' = 0 := by decide
  simp only [List.count_append, List.count_cons_self, List.count_nil, he, hi,
    List.count_eq_zero.2 hf, List.count_eq_zero.2 hh]

namespace Refusal

/-- The message about a refused format, up to the value. -/
def formatOpening : Text := "error: unknown output format '".toList

/-- The message about a refused format, from the value on. -/
def formatClosing : Text := "'\nhint: use one of: text, json".toList

theorem formatOpening_eq :
    formatOpening = "error: ".toList ++ "unknown output format '".toList := by decide

theorem formatClosing_eq : formatClosing =
    '\x27' :: '\n' :: ("hint: ".toList ++ "use one of: text, json".toList) := by decide

theorem message_unknownFormat (v : Raw) : (unknownFormat v).fault.message =
    Raw.ofText formatOpening ++ (v ++ Raw.ofText formatClosing) := by
  have hn : (unknownFormat v).notice.text = Raw.ofText "error: ".toList ++
      (Raw.ofText "unknown output format '".toList ++ v ++ Raw.ofText ['\x27']) ++
        Raw.ofText ('\n' :: ("hint: ".toList ++ "use one of: text, json".toList)) :=
    Notice.text_of_hint rfl (by decide)
  rw [Fault.message_of_notice (f := (unknownFormat v).fault) rfl, hn, formatOpening_eq,
    formatClosing_eq]
  simp only [Raw.ofText, List.map_append, List.map_cons, List.map_nil, List.append_assoc,
    List.singleton_append]

theorem rest?_append_formatClosing (s : Text) :
    rest? (s ++ formatClosing) = (rest? s).map (· ++ formatClosing) := by
  -- The apostrophe can stand in a sequence, so that it does not stop one. The line end does.
  have hq : isFinal '\x27' = false := by decide
  rw [formatClosing_eq, List.append_cons, rest?_append (stops_lineFeed _), rest?_concat hq,
    Option.map_map]
  congr 1
  funext rest
  exact (List.append_cons rest _ _).symm

theorem report_unknownFormat (v : Raw) : (unknownFormat v).fault.report false =
    formatOpening ++ (v.withoutControlSequences.escaped ++ formatClosing) ++ ['\n'] := by
  have ho : escape ∉ formatOpening := by decide
  have hc : withoutControlSequences formatClosing = formatClosing :=
    List.append_cancel_right (Text.printed_of_not_escape (by decide))
  have hl (t : Text) : withoutControlSequences (t ++ formatClosing) =
      withoutControlSequences t ++ formatClosing := by
    rw [withoutControlSequences_append_tail rest?_append_formatClosing, hc]
  have hw : (Raw.ofText formatOpening ++ (v ++ Raw.ofText formatClosing)).withoutControlSequences =
      Raw.ofText formatOpening ++ (v.withoutControlSequences ++ Raw.ofText formatClosing) := by
    rw [Raw.withoutControlSequences,
      Raw.onStretches_ofText_append (withoutControlSequences_append ho),
      Raw.onStretches_append_ofText hl, Raw.withoutControlSequences]
  have hm := Fault.message_of_notice (f := (unknownFormat v).fault) rfl
  rw [Fault.report_of_notice rfl, ← hm, message_unknownFormat, Raw.printed, hw, Raw.escaped_append,
    Raw.escaped_append, Raw.escaped_append, Raw.escaped_ofText, Raw.escaped_ofText]
  rfl

/-- A value is in its report as it is just if it is a text with no control sequence in it. -/
theorem ofText_escaped_eq_iff {v : Raw} : Raw.ofText v.withoutControlSequences.escaped = v ↔
    ∃ t, v = Raw.ofText t ∧ ¬ Occurs t := by
  have hw (t : Text) : (Raw.ofText t).withoutControlSequences.escaped =
      withoutControlSequences t := by
    rw [Raw.withoutControlSequences, Raw.onStretches_ofText, Raw.escaped_ofText]
  constructor
  · intro h
    have he := hw v.withoutControlSequences.escaped
    rw [h] at he
    exact ⟨_, h.symm, withoutControlSequences_eq_iff.1 he.symm⟩
  · rintro ⟨t, rfl, ht⟩
    rw [hw, withoutControlSequences_eq_iff.2 ht]

theorem twoLines_iff {w : Text} :
    TwoLines (formatOpening ++ (w ++ formatClosing) ++ ['\n']) ↔ '\n' ∉ w := by
  constructor
  · intro h hw
    have hc := h.count_eq
    have ho : formatOpening.count '\n' = 0 := by decide
    have hl : formatClosing.count '\n' = 1 := by decide
    have hp := List.count_pos_iff.2 hw
    simp only [List.count_append, List.count_singleton_self, ho, hl] at hc
    omega
  · intro hw
    refine ⟨"unknown output format '".toList ++ (w ++ ['\x27']), "use one of: text, json".toList,
      ?_, by decide, ?_⟩
    · simp [hw]
    · rw [formatOpening_eq, formatClosing_eq]
      simp only [List.append_assoc, List.cons_append, List.nil_append]

end Refusal

namespace Command.Invocation

variable {i : Invocation} {r : Request} {v : Raw}

theorem stderr_of_unknownFormat (hp : i.plan = .scan r)
    (he : i.environment.settings = .error (.unknownFormat v)) :
    i.run.stderr = Refusal.formatOpening ++
      (v.withoutControlSequences.escaped ++ Refusal.formatClosing) ++ ['\n'] := by
  rw [run_of_refused hp he]
  exact Refusal.report_unknownFormat v

/-- A refused format is reported whole if its value is a text with no control sequence in it, and in
two lines if it has no line end. Two of them have one report if, their control sequences left out and
the numbers of their surrogates written out, they are the same. -/
theorem refused_format_report (hp : i.plan = .scan r)
    (he : i.environment.settings = .error (.unknownFormat v)) :
    (∃ value, i.environment.format = some value ∧ v = value.lowercase) ∧
    i.run.exit = .invalidArguments ∧ i.run.stdout = [] ∧
    (Raw.ofText i.run.stderr = (Refusal.unknownFormat v).fault.message ++ [.char '\n'] ↔
      ∃ t, v = Raw.ofText t ∧ ¬ Occurs t) ∧
    (TwoLines i.run.stderr ↔ .char '\n' ∉ v) ∧
    ∀ (j : Invocation) (q : Request) (w : Raw), j.plan = .scan q →
      j.environment.settings = .error (.unknownFormat w) →
      (j.run.stderr = i.run.stderr ↔
        w.withoutControlSequences.escaped = v.withoutControlSequences.escaped) := by
  have hs := stderr_of_unknownFormat hp he
  have hr := run_of_refused hp he
  refine ⟨?_, by rw [hr], by rw [hr], ?_, ?_, ?_⟩
  · cases Environment.settings_eq_error_iff.1 he with
    | format _ _ _ hv => exact ⟨_, hv, rfl⟩
  · have ha (w : Text) :
        Raw.ofText (Refusal.formatOpening ++ (w ++ Refusal.formatClosing) ++ ['\n']) =
          Raw.ofText Refusal.formatOpening ++ (Raw.ofText w ++ Raw.ofText Refusal.formatClosing) ++
            [.char '\n'] := by
      simp only [Raw.ofText, List.map_append, List.map_cons, List.map_nil]
    rw [hs, ha, Refusal.message_unknownFormat, List.append_left_inj, List.append_right_inj,
      List.append_left_inj, Refusal.ofText_escaped_eq_iff]
  · have hm : '\n' ∈ v.withoutControlSequences.escaped ↔ .char '\n' ∈ v := by
      rw [Raw.mem_escaped_iff (by decide)]
      exact Raw.char_mem_onStretches fun _ =>
        mem_withoutControlSequences_iff (by decide) (stops_lineFeed [])
    rw [hs, Refusal.twoLines_iff, hm]
  · intro j q w hq hw
    rw [hs, stderr_of_unknownFormat hq hw, List.append_left_inj, List.append_right_inj,
      List.append_left_inj]

/-- A control sequence is lost, so that a red name and a plain one are reported alike, and a line end
in a name makes a line more. -/
theorem refused_format_in_red :
    let red := escape :: "[31mred".toList
    let plain := "red".toList
    let broken := "re\nd".toList
    let i (v : Text) : Invocation :=
      ⟨Raw.ofStrings ["-e", "x"], { format := some (Raw.ofText v) }, [], fun _ => none⟩
    Raw.ofText (i red).run.stderr ≠
      (Refusal.unknownFormat (Raw.ofText red)).fault.message ++ [.char '\n'] ∧
    (i red).run.stderr = (i plain).run.stderr ∧
    ¬ TwoLines (i broken).run.stderr := by
  intro red plain broken i
  have hr : (i red).environment.settings = .error (.unknownFormat (Raw.ofText red)) := rfl
  have hp : (i plain).environment.settings = .error (.unknownFormat (Raw.ofText plain)) := rfl
  have hb : (i broken).environment.settings = .error (.unknownFormat (Raw.ofText broken)) := rfl
  have ho : Occurs red := ⟨[], "31".toList, [], 'm', plain, rfl,
    List.all_eq_true.1 (by decide), by simp, by decide⟩
  obtain ⟨-, -, -, hw, -, -⟩ := refused_format_report rfl hr
  obtain ⟨-, -, -, -, -, ha⟩ := refused_format_report rfl hp
  obtain ⟨-, -, -, -, hl, -⟩ := refused_format_report rfl hb
  refine ⟨?_, (ha _ _ _ rfl hr).2 rfl, fun h => hl.1 h (by decide)⟩
  intro h
  obtain ⟨t, ht, hn⟩ := hw.1 h
  exact hn (Raw.ofText_injective ht ▸ ho)

end Command.Invocation

end Lexeme
