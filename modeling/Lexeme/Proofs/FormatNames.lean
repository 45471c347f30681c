import Lexeme.Proofs.Arguments
import Lexeme.Proofs.ExitCode
import Lexeme.Proofs.Variables

/-!
A format by its name, with the option or with the variable. The two are checked apart, the one by
one spelling of letters of different case and the other by lower case, and for a name of ASCII the
checks come to the same. An option is laid over the environment without a check of the name that
comes out, but that is the name of a format all the same, since it is one of those that the option
was matched against. The main statement is `format_by_option_or_variable`.
-/

namespace Lexeme

section Names

variable {v : Text} {f : Format}

theorem Text.Lowercase.after_of_ascii (h : ∀ c ∈ v, c.toNat < 0x80) (b : Bool) :
    after b v = v.map Char.toLower := by
  induction v generalizing b with
  | nil => rfl
  | cons c v ih =>
    obtain ⟨hc, hv⟩ := List.forall_mem_cons.1 h
    rw [after_cons, form_of_ascii hc, ih hv, List.singleton_append, List.map_cons]

theorem Text.lowercase_of_ascii (h : ∀ c ∈ v, c.toNat < 0x80) :
    lowercase v = v.map Char.toLower :=
  Lowercase.after_of_ascii h false

theorem Format.says_iff_lowercase (hv : v ≠ []) :
    Format.Says (some (Raw.ofText v)) f ↔ f.name = v.lowercase := by
  have hn : Environment.formatName (some (Raw.ofText v)) = Raw.ofText v.lowercase := by
    rw [← Raw.lowercase_ofText]
    cases v with
    | nil => exact absurd rfl hv
    | cons c v => rfl
  rw [← read_formatName_iff, read_eq_ok_iff, hn, eq_comm]
  exact ⟨fun h => Raw.ofText_injective h, congrArg Raw.ofText⟩

end Names

namespace Command

section Declared

variable {v : Text} {f : Format}

theorem map_foldCase_of_ascii (h : ∀ c ∈ v, c.toNat < 0x80) : v.map foldCase = v.lowercase := by
  rw [Text.lowercase_of_ascii h]
  refine List.map_congr_left fun c hc => ?_
  have hs : c ≠ Char.ofNat 0x17f := by
    rintro rfl
    exact absurd (h _ hc) (by decide)
  rw [foldCase, if_neg hs]

theorem formatOf?_eq_some_iff (hv : v ≠ []) (h : ∀ c ∈ v, c.toNat < 0x80) :
    formatOf? (Raw.ofText v) = some f ↔ Format.Says (some (Raw.ofText v)) f := by
  rw [formatOf?, Raw.text?_ofText, Option.bind_some, Format.ofName?_eq_some_iff,
    map_foldCase_of_ascii h, Format.says_iff_lowercase hv]

/-- Above ASCII the option takes more: the long s is an s to it, and to the variable it is not. -/
example : formatOf? (Raw.ofText ['j', Char.ofNat 0x17f, 'o', 'n']) = some .json ∧
    Format.ofName? (Text.lowercase ['j', Char.ofNat 0x17f, 'o', 'n']) = none := by
  exact ⟨rfl, rfl⟩

/-- The declared name that a value is a spelling of. -/
def declaredName? (value : Raw) : Option Text :=
  value.text?.bind fun s =>
    List.find? (fun name => name.map foldCase = s.map foldCase) (Format.all.map Format.name)

/-- The name by which tokens are printed: that of the option in lower case or, without the option,
that of the variable. It is not checked any more. -/
def Typed.formatName (t : Typed) (e : Environment) : Raw :=
  match t.format.bind declaredName? with
  | some name => Raw.ofText name.lowercase
  | none => Environment.formatName e.format

theorem declaredName?_eq (value : Raw) :
    declaredName? value = (formatOf? value).map Format.name := by
  have hn : ∀ f : Format, f.name.map foldCase = f.name := by
    intro f
    cases f <;> decide
  simp only [declaredName?, List.find?_map, formatOf?, Format.ofName?, Text.find?,
    Function.comp_def, hn, Option.map_bind]

theorem lowercase_name (f : Format) : f.name.lowercase = f.name := by
  cases f <;> rfl

theorem Typed.formatName_eq {e : Environment} {c : Settings} (he : e.settings = .ok c) (t : Typed) :
    t.formatName e = Raw.ofText (t.flags.over c).format.name := by
  have hb : t.format.bind declaredName? = (t.format.bind formatOf?).map Format.name := by
    cases t.format with
    | none => rfl
    | some value => exact declaredName?_eq value
  rw [formatName, hb, Flags.over, flags]
  cases t.format.bind formatOf? with
  | none =>
    have hs := (Environment.settings_eq_ok_iff.1 he).format
    exact Format.read_eq_ok_iff.1 (Format.read_formatName_iff.2 hs)
  | some f => exact congrArg Raw.ofText (lowercase_name f)

theorem ofNameOrText_name (f : Format) : Format.ofNameOrText f.name = f := by
  rw [Format.ofNameOrText, Format.ofName?_eq_some_iff.2 rfl, Option.getD_some]

end Declared

/-- The arguments are answered by a page, or they and the environment let a source be scanned. -/
inductive Invocation.Accepted (i : Invocation) : Prop
  | page {p : Page} (hp : i.plan = .page p)
  | scan {r : Request} {c : Settings} (hp : i.plan = .scan r) (hc : i.environment.settings = .ok c)

/-- One run asks for a format with the option and one with the variable, both by the same value,
and another for none; nothing else is different in them. -/
structure Invocation.Asks (i byOption byVariable : Invocation) (value : Text) : Prop where
  typed : ∃ t : Typed, t.format = none ∧ Typed.ofArguments i.arguments = .ok t ∧
    Typed.ofArguments byOption.arguments = .ok { t with format := some (Raw.ofText value) }
  unset : i.environment.format = none
  option : byOption = { i with arguments := byOption.arguments }
  environment : byVariable =
    { i with environment := { i.environment with format := some (Raw.ofText value) } }

namespace Invocation

section Acceptance

variable {i : Invocation}

theorem not_accepted_of_refuse {u : UsageFault} (hp : i.plan = .refuse u) : ¬ i.Accepted := by
  rintro (h | h)
  · exact absurd (hp.symm.trans h) (by simp)
  · exact absurd (hp.symm.trans h) (by simp)

theorem accepted_iff_of_scan {r : Request} (hp : i.plan = .scan r) :
    i.Accepted ↔ ∃ c, i.environment.settings = .ok c := by
  constructor
  · rintro (h | ⟨-, hc⟩)
    · exact absurd (hp.symm.trans h) (by simp)
    · exact ⟨_, hc⟩
  · rintro ⟨c, hc⟩
    exact .scan hp hc

theorem exit_of_scan {r : Request} {c : Settings} (hp : i.plan = .scan r)
    (hc : i.environment.settings = .ok c) : i.run.exit.number ≠ 2 := by
  rcases r.source.text_cases i.input with ⟨-, f, hs⟩ | ⟨-, s, hs⟩
  · obtain ⟨stderr, hr⟩ := run_of_undecodable hp hc hs
    simp [hr, ExitCode.number]
  · have hi : i.Scans r.source (r.flags.over c) s := ⟨⟨r.flags, c, hp, hc, rfl⟩, hs⟩
    exact hi.exit_number_ne

theorem accepted_or (i : Invocation) :
    (i.Accepted ∧ i.run.exit.number ≠ 2) ∨
    (¬ i.Accepted ∧ i.run.exit.number = 2 ∧ i.run.stdout = []) := by
  cases hp : i.plan with
  | refuse u =>
    right
    exact ⟨not_accepted_of_refuse hp, by simp only [run, hp]; exact ⟨rfl, rfl⟩⟩
  | page p =>
    left
    exact ⟨.page hp, by simp [run, hp, ExitCode.number]⟩
  | scan r =>
    cases hc : i.environment.settings with
    | error refusal =>
      right
      refine ⟨?_, by rw [run_of_refused hp hc]; exact ⟨rfl, rfl⟩⟩
      simp [accepted_iff_of_scan hp, hc]
    | ok c =>
      left
      exact ⟨.scan hp hc, exit_of_scan hp hc⟩

end Acceptance

namespace Asks

variable {i byOption byVariable : Invocation} {value : Text} {r : Request} {f : Format}

/-- Any arguments without the option ask for a format with the option put in front of them. -/
theorem of_arguments {t : Typed} (hf : t.format = none) (ht : Typed.ofArguments i.arguments = .ok t)
    (he : i.environment.format = none) (value : Text) :
    i.Asks { i with arguments := Raw.ofText "-f".toList :: Raw.ofText value :: i.arguments }
      { i with environment := { i.environment with format := some (Raw.ofText value) } }
      value := by
  refine ⟨⟨t, hf, ht, ?_⟩, he, rfl, rfl⟩
  have hr : Typed.ofArguments (Raw.ofText "-f".toList :: Raw.ofText value :: i.arguments) =
      ({ format := some (Raw.ofText value) } : Typed).read none i.arguments := rfl
  rw [hr, Typed.read_eq, ht, Except.map]
  simp [Typed.followedBy, hf]

theorem plan_byVariable (h : i.Asks byOption byVariable value) : byVariable.plan = i.plan := by
  rw [h.environment]
  rfl

theorem plan_of_page (h : i.Asks byOption byVariable value) {p : Page} (hp : i.plan = .page p) :
    byOption.plan = .page p := by
  obtain ⟨t, -, ht, ho⟩ := h.typed
  have hq : t.page = some p := by
    simp only [plan, Plan.ofArguments, ht, Plan.ofTyped] at hp
    split at hp
    · next q hq => rw [hq, Plan.page.inj hp]
    · split at hp <;> exact absurd hp (by simp)
  simp only [plan, Plan.ofArguments, ho, Plan.ofTyped, hq]

theorem plan_of_scan (h : i.Asks byOption byVariable value) (hp : i.plan = .scan r) :
    r.flags.format = none ∧
    byOption.plan = (match formatOf? (Raw.ofText value) with
      | some f => .scan ⟨r.source, { r.flags with format := some f }⟩
      | none => .refuse (.unknownFormat (Raw.ofText value))) := by
  obtain ⟨t, hn, ht, ho⟩ := h.typed
  obtain ⟨t', file, ha, hc, rfl⟩ := admits_of_scan hp
  obtain rfl : t = t' := Except.ok.inj (ht.symm.trans ha.typed)
  have he : byOption.entry = i.entry := by rw [h.option]
  refine ⟨by simp [Typed.flags, hn], ?_⟩
  cases hf : formatOf? (Raw.ofText value) with
  | none =>
    simp [plan, Plan.ofArguments, ho, Plan.ofTyped, ha.page, Typed.request, Typed.checkFormat, hf,
      bind, Except.bind]
  | some f =>
    have hb : byOption.Admits { t with format := some (Raw.ofText value) } file :=
      ⟨ho, ha.page, by simp [hf], ha.values.operands, he ▸ ha.values.entry⟩
    rw [hb.plan, if_neg hc]
    cases file <;> simp [Typed.source, Typed.flags, hf]

theorem settings_byVariable (h : i.Asks byOption byVariable value) {c : Settings}
    (hc : i.environment.settings = .ok c) (d : Settings) :
    byVariable.environment.settings = .ok d ↔
      ∃ f, Format.Says (some (Raw.ofText value)) f ∧ d = { c with format := f } := by
  have hs := Environment.settings_eq_ok_iff.1 hc
  rw [h.environment, Environment.settings_eq_ok_iff]
  constructor
  · intro hd
    refine ⟨d.format, hd.format, ?_⟩
    rw [hs.strict.unique hd.strict, hs.verbose.unique hd.verbose, hs.includeEof, ← hd.includeEof]
  · rintro ⟨f, hf, rfl⟩
    exact ⟨hf, hs.strict, hs.verbose, hs.includeEof⟩

theorem accepted_byOption_iff (h : i.Asks byOption byVariable value) (hp : i.plan = .scan r)
    {c : Settings} (hc : i.environment.settings = .ok c) :
    byOption.Accepted ↔ ∃ f, formatOf? (Raw.ofText value) = some f := by
  have ho := (h.plan_of_scan hp).2
  have he : byOption.environment = i.environment := by rw [h.option]
  cases hf : formatOf? (Raw.ofText value) with
  | none =>
    rw [hf] at ho
    exact iff_of_false (not_accepted_of_refuse ho) (by simp)
  | some f =>
    rw [hf] at ho
    exact iff_of_true (.scan ho (he ▸ hc)) ⟨f, rfl⟩

theorem accepted_byVariable_iff (h : i.Asks byOption byVariable value) (hp : i.plan = .scan r)
    {c : Settings} (hc : i.environment.settings = .ok c) :
    byVariable.Accepted ↔ ∃ f, Format.Says (some (Raw.ofText value)) f := by
  rw [accepted_iff_of_scan (h.plan_byVariable.trans hp)]
  constructor
  · rintro ⟨d, hd⟩
    obtain ⟨f, hf, -⟩ := (h.settings_byVariable hc d).1 hd
    exact ⟨f, hf⟩
  · rintro ⟨f, hf⟩
    exact ⟨_, (h.settings_byVariable hc _).2 ⟨f, hf, rfl⟩⟩

theorem run_eq (h : i.Asks byOption byVariable value) (hp : i.plan = .scan r) {c : Settings}
    (hc : i.environment.settings = .ok c) (ho : formatOf? (Raw.ofText value) = some f)
    (hv : Format.Says (some (Raw.ofText value)) f) : byOption.run = byVariable.run := by
  obtain ⟨hn, hq⟩ := h.plan_of_scan hp
  rw [ho] at hq
  have hd := (h.settings_byVariable hc _).2 ⟨f, hv, rfl⟩
  have hw : byVariable.plan = .scan r := h.plan_byVariable.trans hp
  have he : byOption.environment = i.environment := by rw [h.option]
  have hi : byOption.input = byVariable.input := by rw [h.option, h.environment]
  -- a flag laid over settings of another format is the settings of its own with no flag laid over
  simp only [run, hq, hw, Request.run, he, hc, hd, hi, Request.runWith, Flags.over, hn]
  rfl

theorem accepted_alike (h : i.Asks byOption byVariable value) (hi : i.Accepted) (hv : value ≠ [])
    (ha : ∀ c ∈ value, c.toNat < 0x80) :
    (byOption.Accepted ↔ byVariable.Accepted) ∧
    (byOption.Accepted → byOption.run = byVariable.run) ∧
    ((∃ r, i.plan = .scan r) →
      (byOption.Accepted ↔ ∃ f, Format.Says (some (Raw.ofText value)) f)) := by
  cases hi with
  | page hp =>
    have ho := h.plan_of_page hp
    have hw := h.plan_byVariable.trans hp
    refine ⟨iff_of_true (.page ho) (.page hw), fun _ => by simp only [run, ho, hw], ?_⟩
    rintro ⟨r, hr⟩
    exact absurd (hp.symm.trans hr) (by simp)
  | scan hp hc =>
    have ho := h.accepted_byOption_iff hp hc
    simp only [formatOf?_eq_some_iff hv ha] at ho
    refine ⟨ho.trans (h.accepted_byVariable_iff hp hc).symm, ?_, fun _ => ho⟩
    intro hb
    obtain ⟨f, hf⟩ := ho.1 hb
    exact h.run_eq hp hc ((formatOf?_eq_some_iff hv ha).2 hf) hf

end Asks

theorem Scans.stdout_eq {j : Invocation} {source : Source} {c : Settings} {s : Raw}
    (h : j.Scans source c s) :
    match (pieceOutput c.format (shownPieces c s.pieces)).written with
    | .ok stdout => j.run.stdout = stdout
    | .error _ => j.run.stdout = [] := by
  rcases output_cases c s with ⟨-, t, ht⟩ | ⟨-, u, hu⟩
  · have hp : (pieceOutput c.format (shownPieces c s.pieces)).written = .ok t :=
      Raw.written_eq_ok_iff.2 ht
    rw [h.run_of_output ht, hp]
  · have hp : (pieceOutput c.format (shownPieces c s.pieces)).written = .error u := hu
    rw [h.run_of_unwritable hu, hp]

theorem Scans.formatName {j : Invocation} {source : Source} {c : Settings} {s : Raw}
    (h : j.Scans source c s) : ∃ t, Typed.ofArguments j.arguments = .ok t ∧
      t.formatName j.environment = Raw.ofText c.format.name := by
  obtain ⟨flags, e, hp, he, hc⟩ := h.plan
  obtain ⟨t, file, ha, -, hr⟩ := admits_of_scan hp
  have hf : flags = t.flags := congrArg Request.flags hr
  exact ⟨t, ha.typed, by rw [Typed.formatName_eq he, ← hf, hc]⟩

theorem format_by_option_or_variable :
    (∀ (i byOption byVariable : Invocation) (value : Text), i.Asks byOption byVariable value →
      i.Accepted → value ≠ [] → (∀ c ∈ value, c.toNat < 0x80) →
      (byOption.Accepted ↔ byVariable.Accepted) ∧
      (byOption.Accepted → byOption.run = byVariable.run ∧ byOption.run.exit.number ≠ 2) ∧
      (¬ byOption.Accepted → ∀ j ∈ [byOption, byVariable],
        j.run.exit.number = 2 ∧ j.run.stdout = []) ∧
      ((∃ r, i.plan = .scan r) →
        (byOption.Accepted ↔ ∃ f : Format, Text.Recases value f.name))) ∧
    ∀ (j : Invocation) (source : Source) (c : Settings) (s : Raw), j.Scans source c s →
      ∃ t name, Typed.ofArguments j.arguments = .ok t ∧
        t.formatName j.environment = Raw.ofText name ∧
        (name = "text".toList ∨ name = "json".toList) ∧ name = c.format.name ∧
        match (pieceOutput (Format.ofNameOrText name) (shownPieces c s.pieces)).written with
        | .ok stdout => j.run.stdout = stdout
        | .error _ => j.run.stdout = [] := by
  constructor
  · intro i byOption byVariable value h hi hv ha
    obtain ⟨same, runs, names⟩ := h.accepted_alike hi hv ha
    refine ⟨same, fun hb => ⟨runs hb, ?_⟩, ?_, ?_⟩
    · exact (byOption.accepted_or.resolve_right fun hn => hn.1 hb).2
    · intro hn
      have refused (j : Invocation) (hj : ¬ j.Accepted) :
          j.run.exit.number = 2 ∧ j.run.stdout = [] :=
        (j.accepted_or.resolve_left fun ha => hj ha.1).2
      simpa using ⟨refused byOption hn, refused byVariable (mt same.2 hn)⟩
    · intro hp
      simp only [names hp, Format.says_iff_lowercase hv, Format.name_eq_lowercase_iff]
  · intro j source c s h
    obtain ⟨t, ht, hn⟩ := h.formatName
    refine ⟨t, c.format.name, ht, hn, ?_, rfl, ?_⟩
    · cases c.format with
      | text => exact .inl rfl
      | json => exact .inr rfl
    · rw [ofNameOrText_name]
      exact h.stdout_eq

/-- A name in capitals is taken both ways and a name of no format neither way. The last run has the
option laid over a variable that says something else. -/
theorem format_in_capitals_or_unknown :
    let s := Raw.ofText "a#".toList
    let i : Invocation := ⟨Raw.ofStrings ["-e", "a#"], {}, [], fun _ => none⟩
    let byOption (value : Text) : Invocation :=
      { i with arguments := Raw.ofText "-f".toList :: Raw.ofText value :: i.arguments }
    let byVariable (value : Text) : Invocation :=
      { i with environment := { format := some (Raw.ofText value) } }
    let both : Invocation :=
      { byOption "JsOn".toList with
        environment := { format := some (Raw.ofText "TEXT".toList) } }
    (byOption "JsOn".toList).Accepted ∧
    (byOption "JsOn".toList).run = (byVariable "JsOn".toList).run ∧
    ¬ (byOption "xml".toList).Accepted ∧ ¬ (byVariable "xml".toList).Accepted ∧
    (byVariable "xml".toList).run.stdout = [] ∧
    both.Scans (.expr s) { format := .json } s ∧
    Raw.ofText both.run.stdout = pieceOutput .json (shownPieces {} s.pieces) := by
  intro s i byOption byVariable both
  obtain ⟨alike, named⟩ := format_by_option_or_variable
  have hi : i.Accepted := .scan (r := ⟨.expr s, {}⟩) (c := {}) rfl rfl
  have asks (value : Text) : i.Asks (byOption value) (byVariable value) value :=
    Asks.of_arguments (t := { expr := some s }) rfl rfl rfl value
  have ascii (value : Text) (h : value.all fun c => c.toNat < 0x80) :
      ∀ c ∈ value, c.toNat < 0x80 := by
    simpa using List.all_eq_true.1 h
  have hj : (byOption "JsOn".toList).Accepted :=
    .scan (r := ⟨.expr s, { format := some .json }⟩) (c := {}) rfl rfl
  have hp : (byOption "xml".toList).plan = .refuse (.unknownFormat (Raw.ofText "xml".toList)) := rfl
  have hx : ¬ (byOption "xml".toList).Accepted := not_accepted_of_refuse hp
  have json := alike i _ _ _ (asks "JsOn".toList) hi (by decide) (ascii _ (by decide))
  have xml := alike i _ _ _ (asks "xml".toList) hi (by decide) (ascii _ (by decide))
  have hs : both.Scans (.expr s) { format := .json } s :=
    ⟨⟨{ format := some .json }, {}, rfl, rfl, rfl⟩, rfl⟩
  obtain ⟨t, name, -, -, -, hn, ho⟩ := named both _ _ _ hs
  obtain ⟨u, hu⟩ := output_of_writable (c := { format := .json }) (s := s) fun h => by cases h
  have hw : (pieceOutput (Format.ofNameOrText Format.json.name)
      (shownPieces { format := .json } s.pieces)).written = .ok u := Raw.written_eq_ok_iff.2 hu
  rw [hn] at ho
  simp only [hw] at ho
  exact ⟨hj, (json.2.1 hj).1, hx, mt xml.1.2 hx, (xml.2.2.1 hx _ (by simp)).2, hs,
    (congrArg Raw.ofText ho).trans hu.symm⟩

end Invocation
end Command
end Lexeme
