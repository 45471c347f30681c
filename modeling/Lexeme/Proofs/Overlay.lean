import Lexeme.Command.Run
import Lexeme.Proofs.Arguments

/-!
Settings from the environment and settings from flags. A run under an environment does what a run
under none does whose command line spells every setting out: as a flag gives it where one does, and
as the environment has it elsewhere. So of two environments nothing shows but the settings that no
flag gives. The main statement is `environment_as_flags`.
-/

namespace Lexeme

/-- Every flag given: as it was, or else as it is set. -/
def Flags.spelledOut (f : Flags) (c : Settings) : Flags where
  format := some (f.format.getD c.format)
  noEof := f.noEof
  strict := some (f.strict.getD c.strict)
  verbose := some (f.verbose.getD c.verbose)

theorem Flags.over_spelledOut {c : Settings} (h : c.includeEof = true) (f : Flags) :
    (f.spelledOut c).over {} = f.over c := by
  simp [Flags.over, spelledOut, h]

namespace Command

/-- Every option of a setting typed: as it was, or else as it is set. -/
def Typed.spelledOut (t : Typed) (c : Settings) : Typed :=
  { t with
    format := some (t.format.getD (Raw.ofText c.format.name))
    strict := some (t.strict.getD c.strict)
    verbose := some (t.verbose.getD c.verbose) }

/-- Nothing that the options leave to the environment differs between two settings. -/
structure Typed.Hides (t : Typed) (c d : Settings) : Prop where
  format : t.format = none → c.format = d.format
  strict : t.strict = none → c.strict = d.strict
  verbose : t.verbose = none → c.verbose = d.verbose

/-- Settings as the arguments that ask for them. -/
def spelling (c : Settings) : List Raw :=
  ["--format".toList, c.format.name,
   if c.strict then "--strict".toList else "--no-strict".toList,
   if c.verbose then "--verbose".toList else "--quiet".toList].map Raw.ofText

theorem formatOf?_name (f : Format) : formatOf? (Raw.ofText f.name) = some f := by
  cases f <;> decide

namespace Typed

theorem spelledOut_eq_followedBy (t : Typed) (c : Settings) :
    t.spelledOut c = (spelledOut {} c).followedBy t := by
  cases hf : t.format <;> cases hs : t.strict <;> cases hv : t.verbose <;>
    simp [spelledOut, followedBy, hf, hs, hv]

theorem ofArguments_spelling (c : Settings) (arguments : List Raw) :
    ofArguments (spelling c ++ arguments) = (ofArguments arguments).map (spelledOut · c) := by
  have hs : ofArguments (spelling c ++ arguments) = (spelledOut {} c).read none arguments := by
    obtain ⟨format, includeEof, strict, verbose⟩ := c
    cases format <;> cases strict <;> cases verbose <;> rfl
  rw [hs, read_eq]
  exact congrArg (Except.map · _) (funext fun t => (spelledOut_eq_followedBy t c).symm)

theorem spelledOut_congr {t : Typed} {c d : Settings} (h : t.Hides c d) :
    t.spelledOut c = t.spelledOut d := by
  have hf : t.format.getD (Raw.ofText c.format.name) =
      t.format.getD (Raw.ofText d.format.name) := by
    cases hf : t.format with
    | none => rw [h.format hf]
    | some value => rfl
  have hs : t.strict.getD c.strict = t.strict.getD d.strict := by
    cases hs : t.strict with
    | none => rw [h.strict hs]
    | some on => rfl
  have hv : t.verbose.getD c.verbose = t.verbose.getD d.verbose := by
    cases hv : t.verbose with
    | none => rw [h.verbose hv]
    | some on => rfl
  rw [spelledOut, spelledOut, hf, hs, hv]

theorem checkFormat_spelledOut (t : Typed) (c : Settings) :
    (t.spelledOut c).checkFormat = t.checkFormat.map fun f => some (f.getD c.format) := by
  cases hf : t.format with
  | none => simp [checkFormat, spelledOut, hf, formatOf?_name, Except.map]
  | some value => cases hv : formatOf? value <;> simp [checkFormat, spelledOut, hf, hv, Except.map]

theorem request_spelledOut (t : Typed) (c : Settings) (entry : Raw → Option Entry) :
    (t.spelledOut c).request entry =
      (t.request entry).map fun r => ⟨r.source, r.flags.spelledOut c⟩ := by
  have hi : (t.spelledOut c).checkFile entry = t.checkFile entry := rfl
  have ho : (t.spelledOut c).checkOperands = t.checkOperands := rfl
  have hs : (t.spelledOut c).chooseSource = t.chooseSource := rfl
  rw [request, request, checkFormat_spelledOut, hi, ho, hs]
  cases t.checkFormat with
  | error u => rfl
  | ok format =>
    cases t.checkFile entry with
    | error u => rfl
    | ok file =>
      cases t.checkOperands with
      | error u => rfl
      | ok _ =>
        cases hc : t.chooseSource file with
        | error u => simp [hc, Except.map, bind, Except.bind]
        | ok source =>
          simp [hc, Except.map, bind, Except.bind, pure, Except.pure, Flags.spelledOut, spelledOut]

end Typed

namespace Invocation

variable {i : Invocation} {t : Typed} {c : Settings} {arguments : List Raw}

theorem run_spelledOut (ht : Typed.ofArguments i.arguments = .ok t)
    (ha : Typed.ofArguments arguments = .ok (t.spelledOut c))
    (hc : i.environment.settings = .ok c) :
    ({ i with arguments, environment := {} } : Invocation).run = i.run := by
  have he : ({} : Environment).settings = .ok {} := rfl
  have hp : (t.spelledOut c).page = t.page := rfl
  simp only [run, plan, Plan.ofArguments, ht, ha, Plan.ofTyped, hp]
  cases t.page with
  | some p => rfl
  | none =>
    rw [Typed.request_spelledOut]
    cases t.request i.entry with
    | error u => rfl
    | ok r =>
      simp only [Except.map, Request.run, he, hc]
      rw [Flags.over_spelledOut (Environment.includeEof_of_settings hc)]
      rfl

theorem environment_as_flags (ht : Typed.ofArguments i.arguments = .ok t)
    (hc : i.environment.settings = .ok c) :
    (∀ arguments, Typed.ofArguments arguments = .ok (t.spelledOut c) →
      ({ i with arguments, environment := {} } : Invocation).run = i.run) ∧
    Typed.ofArguments (spelling c ++ i.arguments) = .ok (t.spelledOut c) ∧
    ∀ environment d, environment.settings = .ok d → t.Hides c d →
      ({ i with environment } : Invocation).run = i.run := by
  have hs : Typed.ofArguments (spelling c ++ i.arguments) = .ok (t.spelledOut c) := by
    rw [Typed.ofArguments_spelling, ht]
    rfl
  refine ⟨fun arguments ha => run_spelledOut ht ha hc, hs, ?_⟩
  intro environment d hd h
  have hsd := hs
  rw [Typed.spelledOut_congr h] at hsd
  have hi := run_spelledOut ht hs hc
  have hj := run_spelledOut (i := { i with environment }) ht hsd hd
  exact hj.symm.trans hi

theorem environment_as_json_strict :
    let set (value : String) : Option Raw := some (Raw.ofText value.toList)
    let e : Environment := { format := set "JSON", strict := set " yes ", verbose := set "0" }
    let i : Invocation :=
      ⟨Raw.ofStrings ["-ea#", "--no-eof", "-v"], e, [], fun _ => none⟩
    let t : Typed := { expr := some (Raw.ofText "a#".toList), noEof := true, verbose := some true }
    let c : Settings := { format := .json, strict := true }
    let arguments := Raw.ofStrings ["-v", "-fjson", "--strict", "-e", "a#", "--no-eof"]
    let loud : Environment := { e with verbose := set "on" }
    Typed.ofArguments i.arguments = .ok t ∧ e.settings = .ok c ∧
    Typed.ofArguments arguments = .ok (t.spelledOut c) ∧
    loud.settings = .ok { c with verbose := true } ∧ t.Hides c { c with verbose := true } ∧
    ({ i with arguments, environment := {} } : Invocation).run = i.run ∧
    ({ i with environment := loud } : Invocation).run = i.run := by
  intro set e i t c arguments loud
  have ht : Typed.ofArguments i.arguments = .ok t := rfl
  have hc : e.settings = .ok c := rfl
  have ha : Typed.ofArguments arguments = .ok (t.spelledOut c) := rfl
  have hd : loud.settings = .ok { c with verbose := true } := rfl
  have hh : t.Hides c { c with verbose := true } := ⟨fun _ => rfl, fun _ => rfl, by simp [t]⟩
  have h := environment_as_flags ht hc
  exact ⟨ht, hc, ha, hd, hh, h.1 arguments ha, h.2.2 loud _ hd hh⟩

end Invocation
end Command
end Lexeme
