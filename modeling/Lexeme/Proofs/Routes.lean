import Lexeme.Proofs.Arguments
import Lexeme.Proofs.Decoding
import Lexeme.Proofs.Outcome

/-!
The three ways in which a run comes by its text: among the arguments, on the input, in a file. What
is decoded from bytes has its line ends brought to one form on the way, which no token shows, by
`tokenize_withUnixLines`: line ends are white space, and a carriage return and the line feed after it
stand in the same gap. So the ways agree in all that is made of tokens. The main statement is
`routes_agree`.
-/

namespace Lexeme

section LineEnds

namespace Text

theorem withUnixLines_of_no_return {s : Text} (h : '\r' ∉ s) : withUnixLines s = s := by
  fun_induction withUnixLines s with
  | case1 => rfl
  | case2 => simp at h
  | case3 => simp at h
  | case4 c rest _ _ ih => simp_all

theorem withUnixLines_cons {c : Char} (h : c ≠ '\r') (s : Text) :
    withUnixLines (c :: s) = c :: withUnixLines s := by
  rw [withUnixLines]
  · simp [h]
  · simp [h]

theorem withUnixLines_return {s : Text} (h : s.head? ≠ some '\n') :
    withUnixLines ('\r' :: s) = '\n' :: withUnixLines s := by
  cases s with
  | nil => rfl
  | cons c s =>
    rw [withUnixLines]
    rintro rest ⟨rfl, rfl⟩
    exact h rfl

theorem withUnixLines_append {a b : Text}
    (h : a.getLast? = some '\r' → b.head? ≠ some '\n') :
    withUnixLines (a ++ b) = withUnixLines a ++ withUnixLines b := by
  have last (c : Char) (s : Text) (hs : s.getLast? = some '\r') :
      (c :: s).getLast? = some '\r' := by
    rw [List.getLast?_cons, hs, Option.getD_some]
  fun_induction withUnixLines a with
  | case1 => rfl
  | case2 rest ih =>
    have ih := ih fun hr => h (last _ _ (last _ _ hr))
    rw [List.cons_append, List.cons_append, withUnixLines, ih, List.cons_append]
  | case3 rest hn ih =>
    have ih := ih fun hr => h (last _ _ hr)
    have hb : (rest ++ b).head? ≠ some '\n' := by
      cases rest with
      | nil => exact h rfl
      | cons c rest =>
        intro hc
        obtain rfl : c = '\n' := by simpa using hc
        exact hn rest rfl
    rw [List.cons_append, withUnixLines_return hb, ih, List.cons_append]
  | case4 c rest hn hc ih =>
    have ih := ih fun hr => h (last _ _ hr)
    rw [List.cons_append, withUnixLines_cons hc, ih, List.cons_append]

theorem head?_withUnixLines {s : Text} {c : Char} (h : s.withUnixLines.head? = some c) :
    c = '\n' ∨ s.head? = some c := by
  fun_induction withUnixLines s with
  | case1 => exact .inr h
  | case2 rest ih => exact .inl (by simpa using h.symm)
  | case3 rest hn ih => exact .inl (by simpa using h.symm)
  | case4 c rest hn hc ih => exact .inr h

end Text

theorem IsGap.withUnixLines {w : Text} (h : IsGap w) : IsGap w.withUnixLines := by
  fun_induction Text.withUnixLines w with
  | case1 => exact h
  | case2 rest ih =>
    exact List.forall_mem_cons.2 ⟨rfl, ih (List.forall_mem_cons.1 (List.forall_mem_cons.1 h).2).2⟩
  | case3 rest hn ih => exact List.forall_mem_cons.2 ⟨rfl, ih (List.forall_mem_cons.1 h).2⟩
  | case4 c rest hn hc ih =>
    obtain ⟨hs, hr⟩ := List.forall_mem_cons.1 h
    exact List.forall_mem_cons.2 ⟨hs, ih hr⟩

theorem Kind.StopsAt.withUnixLines {k : Kind} {rest : Text} (h : k.StopsAt rest) :
    k.StopsAt rest.withUnixLines := by
  intro c hc
  rcases Text.head?_withUnixLines hc with rfl | hr
  · exact not_takes_space rfl
  · exact h c hr

theorem Token.WellFormed.withUnixLines {t : Token} (h : t.WellFormed) :
    t.text.withUnixLines = t.text := by
  apply Text.withUnixLines_of_no_return
  intro hr
  exact absurd (h.not_isSpace hr) (by decide)

theorem next?_withUnixLines {s : Text} {f : Found} (h : next? s = some f) :
    next? s.withUnixLines = some ⟨f.gap.withUnixLines, f.token, f.rest.withUnixLines⟩ := by
  obtain ⟨hp, hs⟩ := next?_eq_some_iff.1 h
  have hn := hp.token.text_ne_nil
  have hgap : f.gap.getLast? = some '\r' → f.token.text.head? ≠ some '\n' := by
    intro _ hh
    exact absurd (hp.token.not_isSpace (List.mem_of_mem_head? hh)) (by decide)
  have hrest : (f.gap ++ f.token.text).getLast? = some '\r' → f.rest.head? ≠ some '\n' := by
    intro hl
    rw [List.getLast?_append, List.getLast?_eq_some_getLast hn, Option.some_or] at hl
    have hm : '\r' ∈ f.token.text := List.mem_of_getLast? (List.getLast?_eq_some_getLast hn ▸ hl)
    exact absurd (hp.token.not_isSpace hm) (by decide)
  refine next?_eq_some_iff.2 ⟨⟨hp.gap.withUnixLines, hp.token, hp.stops.withUnixLines⟩, ?_⟩
  rw [← hs, Text.withUnixLines_append hrest, Text.withUnixLines_append hgap,
    hp.token.withUnixLines]

theorem tokenize_withUnixLines (s : Text) : tokenize s.withUnixLines = tokenize s := by
  induction s using scan.induct with
  | case1 s h =>
    have hs := next?_eq_none_iff.1 h
    rw [tokenize_of_gap hs, tokenize_of_gap hs.withUnixLines]
  | case2 s f h ih => rw [tokenize_of_next h, tokenize_of_next (next?_withUnixLines h), ih]

end LineEnds

namespace Command

section Routes

/-- Options that name no source, with one named beside them. -/
def Typed.naming (options : Typed) : Source → Typed
  | .expr s => { options with expr := some s }
  | .file name _ => { options with operands := [name] }
  | .input => options

/-- The arguments of a run give options that name no source, and a source beside them. -/
structure Invocation.ReadsFrom (i : Invocation) (options : Typed) (source : Source) : Prop where
  silent : options.expr = none ∧ options.operands = []
  arguments : Typed.ofArguments i.arguments = .ok (options.naming source)
  entry : ∀ name bytes, source = .file name bytes → i.entry name = some (.file bytes)

variable {i : Invocation} {options : Typed} {source : Source}

def Source.ofFile? : Source → Option Source
  | .file name bytes => some (.file name bytes)
  | .expr _ | .input => none

theorem Invocation.ReadsFrom.checkFile_eq (h : i.ReadsFrom options source) :
    (options.naming source).checkFile i.entry = .ok source.ofFile? := by
  cases source with
  | expr s | input => simp [Typed.naming, Typed.checkFile, h.silent.2, Source.ofFile?]
  | file name bytes => simp [Typed.naming, Typed.checkFile, h.entry name bytes rfl, Source.ofFile?]

theorem Invocation.ReadsFrom.checkOperands_eq (h : i.ReadsFrom options source) :
    (options.naming source).checkOperands = .ok () := by
  cases source with
  | expr s | input => simp [Typed.naming, Typed.checkOperands, h.silent.2]
  | file name bytes => rfl

theorem Invocation.ReadsFrom.chooseSource_eq (h : i.ReadsFrom options source) :
    (options.naming source).chooseSource source.ofFile? = .ok source := by
  cases source with
  | expr s => rfl
  | file name bytes => simp [Typed.naming, Typed.chooseSource, h.silent.1, Source.ofFile?]
  | input => simp [Typed.naming, Typed.chooseSource, h.silent.1, Source.ofFile?]

theorem Invocation.ReadsFrom.request_eq (h : i.ReadsFrom options source) :
    (options.naming source).request i.entry = options.checkFormat.map fun format =>
      ⟨source, ⟨format, options.noEof, options.strict, options.verbose⟩⟩ := by
  have hf : (options.naming source).checkFormat = options.checkFormat := by cases source <;> rfl
  have hc := h.chooseSource_eq
  rw [Typed.request, hf, h.checkFile_eq, h.checkOperands_eq]
  cases options.checkFormat with
  | error u => rfl
  | ok format =>
    simp only [bind, Except.bind, hc]
    cases source <;> rfl

theorem Invocation.ReadsFrom.plan_eq (h : i.ReadsFrom options source) :
    i.plan = match options.page with
      | some p => .page p
      | none => match options.checkFormat with
        | .error u => .refuse u
        | .ok format => .scan ⟨source, ⟨format, options.noEof, options.strict, options.verbose⟩⟩ := by
  have hp : (options.naming source).page = options.page := by cases source <;> rfl
  simp only [Invocation.plan, Plan.ofArguments, h.arguments, Plan.ofTyped, hp, h.request_eq]
  cases options.page with
  | some p => rfl
  | none => cases options.checkFormat <;> rfl

theorem plan_cases (options : Typed) :
    (∃ o : Outcome, ∀ (i : Invocation) (source : Source), i.ReadsFrom options source →
      i.run = o ∧ ∀ r, i.plan ≠ .scan r) ∨
    ∃ flags : Flags, flags.verbose = options.verbose ∧
      ∀ (i : Invocation) (source : Source), i.ReadsFrom options source →
        i.plan = .scan ⟨source, flags⟩ := by
  cases hp : options.page with
  | some p =>
    left
    refine ⟨{ exit := .success, stdout := p.text }, ?_⟩
    intro i source h
    have hi := h.plan_eq
    rw [hp] at hi
    simp [Invocation.run, hi]
  | none =>
    cases hf : options.checkFormat with
    | error u =>
      left
      refine ⟨u.outcome, ?_⟩
      intro i source h
      have hi := h.plan_eq
      rw [hp, hf] at hi
      simp [Invocation.run, hi]
    | ok format =>
      right
      refine ⟨⟨format, options.noEof, options.strict, options.verbose⟩, rfl, ?_⟩
      intro i source h
      rw [h.plan_eq, hp, hf]

/-- Before the source is looked at, runs with the same options in the same environment go the same
way: either all of them end alike, or each goes on to scan what it gets from its source. -/
theorem readsFrom_cases (options : Typed) (v : Environment) :
    (∃ o : Outcome, ∀ (i : Invocation) (source : Source), i.ReadsFrom options source →
      i.environment = v → i.run = o ∧ ∀ c s, ¬ i.Scans source c s) ∨
    ∃ (e c : Settings), v.settings = .ok e ∧ c.verbose = options.verbose.getD e.verbose ∧
      ∀ (i : Invocation) (source : Source) (s : Raw), i.ReadsFrom options source →
        i.environment = v → source.text i.input = .ok s → i.Scans source c s := by
  rcases plan_cases options with ⟨o, ho⟩ | ⟨flags, hv, hp⟩
  · left
    refine ⟨o, ?_⟩
    intro i source h _
    refine ⟨(ho i source h).1, ?_⟩
    intro c s hs
    obtain ⟨flags, e, hi, -⟩ := hs.plan
    exact (ho i source h).2 _ hi
  · cases he : v.settings with
    | error refusal =>
      left
      refine ⟨{ exit := .invalidArguments, stderr := refusal.fault.report false }, ?_⟩
      intro i source h hiv
      subst hiv
      refine ⟨Invocation.run_of_refused (hp i source h) he, ?_⟩
      intro c s hs
      obtain ⟨flags, e, -, he', -⟩ := hs.plan
      exact absurd (he.symm.trans he') (by simp)
    | ok e =>
      right
      refine ⟨e, flags.over e, rfl, by rw [Flags.over, hv], ?_⟩
      intro i source s h hiv hs
      subst hiv
      exact ⟨⟨flags, e, hp i source h, he, rfl⟩, hs⟩

theorem decoded_encode (s : Text) :
    Source.text.decoded (Text.Utf8.encode s) = .ok (Raw.ofText s.withUnixLines) := by
  rw [Source.text.decoded, Text.Utf8.decode_eq_ok_iff.2 rfl]

/-- Three runs with the same options in the same environment that come by the same text in the three
ways there are. -/
structure Routes (s : Text) (options : Typed) (v : Environment)
    (byText byInput byFile : Invocation) : Prop where
  text : byText.ReadsFrom options (.expr (Raw.ofText s))
  input : byInput.ReadsFrom options .input ∧ byInput.input = Text.Utf8.encode s
  file : ∃ name, byFile.ReadsFrom options (.file name (Text.Utf8.encode s))
  environment : byText.environment = v ∧ byInput.environment = v ∧ byFile.environment = v

/-- Any arguments that give options only make three such runs: as they are, with a text put in front
of them, and with the name of a file put in front of them. -/
theorem Routes.of_options {arguments : List Raw} {entry : Raw → Option Entry} {s : Text} {name : Raw}
    (ha : Typed.ofArguments arguments = .ok options)
    (hs : options.expr = none ∧ options.operands = []) (hn : name.head? ≠ some (.char '-'))
    (he : entry name = some (.file (Text.Utf8.encode s))) (v : Environment)
    (input : Text.Utf8.Bytes) :
    Routes s options v
      ⟨Raw.ofText "--expr".toList :: Raw.ofText s :: arguments, v, input, entry⟩
      ⟨arguments, v, Text.Utf8.encode s, entry⟩ ⟨name :: arguments, v, input, entry⟩ := by
  have ht : Typed.ofArguments (Raw.ofText "--expr".toList :: Raw.ofText s :: arguments) =
      .ok (options.naming (.expr (Raw.ofText s))) := by
    have hr : Typed.ofArguments (Raw.ofText "--expr".toList :: Raw.ofText s :: arguments) =
        ({ expr := some (Raw.ofText s) } : Typed).read none arguments := rfl
    rw [hr, Typed.read_eq, ha, Except.map]
    simp [Typed.followedBy, Typed.naming, hs.1]
  have hf : Typed.ofArguments (name :: arguments) =
      .ok (options.naming (.file name (Text.Utf8.encode s))) := by
    have hr : Typed.ofArguments (name :: arguments) =
        ({ operands := [name] } : Typed).read none arguments := by
      cases name with
      | nil => rfl
      | cons c name =>
        have hc : c ≠ .char '-' := by simpa using hn
        simp [Typed.ofArguments, Typed.read, Typed.readArgument, Typed.addOperands, hc]
    rw [hr, Typed.read_eq, ha, Except.map]
    simp [Typed.followedBy, Typed.naming, hs.2]
  refine ⟨⟨hs, ht, by simp⟩, ⟨⟨hs, ha, by simp⟩, rfl⟩, ⟨name, hs, hf, ?_⟩, rfl, rfl, rfl⟩
  intro name' bytes h
  obtain ⟨rfl, rfl⟩ := Source.file.inj h
  exact he

/-- A verbose run that scans a text numbers its tokens on the error output. -/
theorem Invocation.Scans.stderr_of_text {c : Settings} {t : Text}
    (h : i.Scans source c (Raw.ofText t)) (hv : c.verbose = true) :
    i.run.stderr = source.announcement ++ (trace (Raw.ofText t)).flatMap Event.line ++
      (counts t.length (tokenize t).length ((tokenize t).countP fun t => t.kind = .illegal) ++
        ['\n']) ++ strictReport c.strict (Raw.ofText t) := by
  obtain ⟨u, hu⟩ := output_of_writable (c := c) fun _ => Raw.surrogate_not_mem_ofText t
  have hl : (Raw.ofText t).length = t.length := List.length_map ..
  have hn : (Raw.ofText t).pieces.length = (tokenize t).length := by
    rw [Raw.pieces_ofText, List.length_map]
  have hc : (Raw.ofText t).pieces.countP (fun p => p.kind = .illegal) =
      (tokenize t).countP fun t => t.kind = .illegal := by
    rw [Raw.pieces_ofText, List.countP_map]
    rfl
  rw [h.run_of_output hu]
  simp only [hv, if_true, account, hl, hn, hc, List.append_assoc]

theorem routes_agree {s : Text} {options : Typed} {v : Environment}
    {byText byInput byFile : Invocation} (h : Routes s options v byText byInput byFile) :
    (byText.run.exit = byInput.run.exit ∧ byText.run.stdout = byInput.run.stdout) ∧
    (byFile.run.exit = byInput.run.exit ∧ byFile.run.stdout = byInput.run.stdout) ∧
    ((∀ e, v.settings = .ok e → options.verbose.getD e.verbose = false) →
      byText.run = byInput.run ∧ byFile.run = byInput.run) ∧
    ((∀ e, v.settings = .ok e → options.verbose.getD e.verbose = true) →
      (∃ c u, byInput.Scans .input c u) →
      let unix := s.withUnixLines
      let log (t : Text) := (trace (Raw.ofText t)).flatMap Event.line
      let line (characters : Nat) := counts characters (tokenize s).length
        ((tokenize s).countP fun t => t.kind = .illegal) ++ ['\n']
      ∃ opened report,
        byText.run.stderr = log s ++ line s.length ++ report ∧
        byInput.run.stderr = log unix ++ line unix.length ++ report ∧
        byFile.run.stderr = opened ++ log unix ++ line unix.length ++ report) := by
  obtain ⟨ht, ⟨hi, hb⟩, ⟨name, hf⟩, hvt, hvi, hvf⟩ := h
  rcases readsFrom_cases options v with ⟨o, ho⟩ | ⟨e, c, he, hc, hs⟩
  · obtain ⟨hrt, -⟩ := ho _ _ ht hvt
    obtain ⟨hri, hn⟩ := ho _ _ hi hvi
    obtain ⟨hrf, -⟩ := ho _ _ hf hvf
    rw [hrt, hri, hrf]
    refine ⟨⟨rfl, rfl⟩, ⟨rfl, rfl⟩, fun _ => ⟨rfl, rfl⟩, ?_⟩
    intro _ hu
    obtain ⟨c, u, hu⟩ := hu
    exact absurd hu (hn c u)
  · have ht := hs _ _ _ ht hvt rfl
    have hi := hs _ _ _ hi hvi (hb ▸ decoded_encode s)
    have hf := hs _ _ _ hf hvf (decoded_encode s)
    have hl := tokenize_withUnixLines s
    have hp : (Raw.ofText s).pieces = (Raw.ofText s.withUnixLines).pieces := by
      rw [Raw.pieces_ofText, Raw.pieces_ofText, hl]
    have hti := ht.agree hi hp
    have hfi := hf.agree hi rfl
    refine ⟨⟨hti.1, hti.2.1⟩, ⟨hfi.1, hfi.2.1⟩, ?_, ?_⟩
    · intro hq
      have hq := hc.trans (hq e he)
      exact ⟨hti.2.2 hq, hfi.2.2 hq⟩
    · intro hv _ unix log line
      have hv := hc.trans (hv e he)
      have hr : strictReport c.strict (Raw.ofText unix) = strictReport c.strict (Raw.ofText s) := by
        rw [strictReport, strictReport, Raw.find?_isForeign_of_pieces hp]
      refine ⟨(Source.file name (Text.Utf8.encode s)).announcement,
        strictReport c.strict (Raw.ofText s), ht.stderr_of_text hv, ?_, ?_⟩
      · rw [hi.stderr_of_text hv, hl, hr]
        rfl
      · rw [hf.stderr_of_text hv, hl, hr]

theorem routes_agree_on_returns :
    let s : Text := "a\r\n#\r".toList
    let arguments := Raw.ofStrings ["-fjson", "--strict"]
    let file := Raw.ofText "a".toList
    let entry (path : Raw) : Option Entry :=
      if path = file then some (.file (Text.Utf8.encode s)) else none
    let byText : Invocation :=
      ⟨Raw.ofText "--expr".toList :: Raw.ofText s :: arguments, {}, [], entry⟩
    let byInput : Invocation := ⟨arguments, {}, Text.Utf8.encode s, entry⟩
    let byFile : Invocation := ⟨file :: arguments, {}, [], entry⟩
    let options : Typed := { format := some (Raw.ofText "json".toList), strict := some true }
    s.withUnixLines ≠ s ∧ Routes s options {} byText byInput byFile ∧
    byText.run = byInput.run ∧ byFile.run = byInput.run := by
  intro s arguments file entry byText byInput byFile options
  have h : Routes s options {} byText byInput byFile :=
    Routes.of_options rfl ⟨rfl, rfl⟩ (by decide) (if_pos rfl) {} []
  have hq (e : Settings) (he : ({} : Environment).settings = .ok e) : e.verbose = false := by
    obtain rfl := Except.ok.inj he
    rfl
  exact ⟨by decide, h, (routes_agree h).2.2.1 hq⟩

end Routes

end Command
end Lexeme
