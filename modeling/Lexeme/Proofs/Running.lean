import Lexeme.Command.Run

/-!
How far a run comes. Its arguments are in order or refused; if they are in order, they name one
source or, which is refused as well, two; and a run with one source ends at the environment, at the
bytes of the source, or with its tokens scanned. Which arguments are in order is `Invocation.Admits`,
and `admits_iff` says it of the plan that is made of them.
-/

namespace Lexeme.Command

section Admission

variable {i : Invocation} {t : Typed} {file : Option (Raw × Text.Utf8.Bytes)}
  {entry : Raw → Option Entry}

/-- What the arguments name: a text, a file with what it holds, or nothing. -/
def Typed.source (t : Typed) : Option (Raw × Text.Utf8.Bytes) → Source
  | some (name, bytes) => .file name bytes
  | none => t.expr.elim .input .expr

def Typed.flags (t : Typed) : Flags where
  format := t.format.bind formatOf?
  noEof := t.noEof
  strict := t.strict
  verbose := t.verbose

/-- The values in order: the name of a format if any is typed, and at most one operand, the name of
a file that is there. -/
structure Typed.Admits (t : Typed) (entry : Raw → Option Entry)
    (file : Option (Raw × Text.Utf8.Bytes)) : Prop where
  format : ∀ value, t.format = some value → (formatOf? value).isSome = true
  operands : t.operands = (file.map Prod.fst).toList
  entry : ∀ name bytes, file = some (name, bytes) → entry name = some (.file bytes)

/-- The arguments are in order: they can be read, ask for no page, and have their values in order.
That they may name two sources is not looked at. -/
structure Invocation.Admits (i : Invocation) (t : Typed)
    (file : Option (Raw × Text.Utf8.Bytes)) : Prop where
  typed : Typed.ofArguments i.arguments = .ok t
  page : t.page = none
  values : t.Admits i.entry file

namespace Typed

theorem checkFormat_cases (t : Typed) :
    (∃ value, t.format = some value ∧ formatOf? value = none ∧
      t.checkFormat = .error (.unknownFormat value)) ∨
    ((∀ value, t.format = some value → (formatOf? value).isSome = true) ∧
      t.checkFormat = .ok (t.format.bind formatOf?)) := by
  cases hv : t.format with
  | none => simp [checkFormat, hv]
  | some value => cases hf : formatOf? value <;> simp [checkFormat, hv, hf]

theorem checkFile_cases (t : Typed) (entry : Raw → Option Entry) :
    (∃ name, t.operands.head? = some name ∧ (∀ bytes, entry name ≠ some (.file bytes)) ∧
      ∃ u, t.checkFile entry = .error u ∧ u ≠ .twoSources) ∨
    ∃ file : Option (Raw × Text.Utf8.Bytes), t.operands.head? = file.map Prod.fst ∧
      (∀ name bytes, file = some (name, bytes) → entry name = some (.file bytes)) ∧
      t.checkFile entry = .ok (file.map fun f => .file f.1 f.2) := by
  cases hh : t.operands.head? with
  | none => exact .inr ⟨none, by simp [checkFile, hh]⟩
  | some name =>
    rcases he : entry name with _ | ⟨bytes⟩ | _
    · exact .inl ⟨name, rfl, by simp [he], .noSuchFile name, by simp [checkFile, hh, he]⟩
    · exact .inr ⟨some (name, bytes), by simp [checkFile, hh, he]⟩
    · exact .inl ⟨name, rfl, by simp [he], .isFolder name, by simp [checkFile, hh, he]⟩

theorem checkOperands_cases (t : Typed) :
    (t.operands.tail ≠ [] ∧ t.checkOperands = .error (.extraArguments t.operands.tail)) ∨
    (t.operands.tail = [] ∧ t.checkOperands = .ok ()) := by
  cases ht : t.operands.tail <;> simp [checkOperands, ht]

theorem chooseSource_file (t : Typed) (file : Option (Raw × Text.Utf8.Bytes)) :
    t.chooseSource (file.map fun f => .file f.1 f.2) =
      if file.isSome ∧ t.expr.isSome then .error .twoSources else .ok (t.source file) := by
  cases file with
  | none => simp [chooseSource, source]
  | some f => simp [chooseSource, source]

theorem Admits.unique {file file' : Option (Raw × Text.Utf8.Bytes)} (h : t.Admits entry file)
    (h' : t.Admits entry file') : file = file' := by
  have ho := h.operands.symm.trans h'.operands
  rcases file with _ | ⟨name, bytes⟩ <;> rcases file' with _ | ⟨name', bytes'⟩
  · rfl
  · exact absurd ho (by simp)
  · exact absurd ho (by simp)
  · obtain rfl : name = name' := by simpa using ho
    have hb := (h.entry name bytes rfl).symm.trans (h'.entry name bytes' rfl)
    simpa using hb

/-- What a request comes to: the values are out of order, or the source is chosen. -/
theorem request_cases (t : Typed) (entry : Raw → Option Entry) :
    ((∀ file, ¬ t.Admits entry file) ∧
      ∃ u, t.request entry = .error u ∧ u ≠ .twoSources) ∨
    ∃ file, t.Admits entry file ∧
      t.request entry = if file.isSome ∧ t.expr.isSome then .error .twoSources
        else .ok ⟨t.source file, t.flags⟩ := by
  rcases t.checkFormat_cases with ⟨value, hv, hn, hc⟩ | ⟨hf, hc⟩
  · left
    refine ⟨?_, .unknownFormat value, by simp [request, hc, bind, Except.bind], by simp⟩
    intro file h
    simpa [hn] using h.format value hv
  rcases t.checkFile_cases entry with ⟨name, hh, hn, u, hu, hne⟩ | ⟨file, hh, he, hu⟩
  · left
    refine ⟨?_, u, by simp [request, hc, hu, bind, Except.bind], hne⟩
    intro file h
    rw [h.operands] at hh
    rcases file with _ | ⟨name', bytes⟩
    · exact absurd hh (by simp)
    · obtain rfl : name' = name := by simpa using hh
      exact hn bytes (h.entry name' bytes rfl)
  rcases t.checkOperands_cases with ⟨ht, ho⟩ | ⟨ht, ho⟩
  · left
    refine ⟨?_, .extraArguments t.operands.tail, by simp [request, hc, hu, ho, bind, Except.bind],
      by simp⟩
    intro file' h
    rw [h.operands] at ht
    cases file' <;> exact ht rfl
  · right
    refine ⟨file, ⟨hf, ?_, he⟩, ?_⟩
    · rw [← hh]
      cases hl : t.operands with
      | nil => rfl
      | cons name names => simpa [hl] using ht
    · by_cases hb : file.isSome = true ∧ t.expr.isSome = true <;>
        simp [request, hc, hu, ho, chooseSource_file, hb, flags, bind, Except.bind, pure,
          Except.pure]

theorem readLong_ne_twoSources (t : Typed) (argument : Raw) :
    t.readLong argument ≠ .error .twoSources := by
  simp only [readLong]
  split <;> simp

theorem readCluster_ne_twoSources (t : Typed) (letters : Raw) :
    t.readCluster letters ≠ .error .twoSources := by
  induction letters generalizing t with
  | nil => simp [readCluster]
  | cons c rest ih =>
    rw [readCluster]
    split
    · simp
    · exact ih _
    · split <;> simp

theorem readArgument_ne_twoSources (t : Typed) (argument : Raw) :
    t.readArgument argument ≠ .error .twoSources := by
  unfold readArgument
  split
  · exact readLong_ne_twoSources t _
  · exact readCluster_ne_twoSources t _
  · simp

theorem read_ne_twoSources (t : Typed) (awaited : Option Awaited) (arguments : List Raw) :
    t.read awaited arguments ≠ .error .twoSources := by
  induction arguments generalizing t awaited with
  | nil => cases awaited <;> simp [read]
  | cons argument rest ih =>
    cases awaited with
    | some a => exact ih _ none
    | none =>
      rw [read]
      split
      · simp
      · split
        · next u hu =>
          intro h
          obtain rfl := Except.error.inj h
          exact readArgument_ne_twoSources t argument hu
        · exact ih _ _

end Typed

theorem Invocation.Admits.plan (h : i.Admits t file) :
    i.plan = if file.isSome ∧ t.expr.isSome then .refuse .twoSources
      else .scan ⟨t.source file, t.flags⟩ := by
  rcases t.request_cases i.entry with ⟨hn, -⟩ | ⟨file', ha, hr⟩
  · exact absurd h.values (hn file)
  · obtain rfl := ha.unique h.values
    by_cases hb : file'.isSome = true ∧ t.expr.isSome = true <;>
      simp [Invocation.plan, Plan.ofArguments, h.typed, Plan.ofTyped, h.page, hr, hb]

/-- The arguments are in order exactly if the run comes as far as to the choice of a source. -/
theorem Invocation.admits_iff :
    (∃ t file, i.Admits t file) ↔ (∃ r, i.plan = .scan r) ∨ i.plan = .refuse .twoSources := by
  constructor
  · intro h
    obtain ⟨t, file, h⟩ := h
    rw [h.plan]
    split
    · exact .inr rfl
    · exact .inl ⟨_, rfl⟩
  · intro h
    cases ht : Typed.ofArguments i.arguments with
    | error u =>
      have hu : u = .twoSources := by simpa [Invocation.plan, Plan.ofArguments, ht] using h
      exact absurd (hu ▸ ht) (Typed.read_ne_twoSources {} none i.arguments)
    | ok t =>
      cases hp : t.page with
      | some p => simp [Invocation.plan, Plan.ofArguments, ht, Plan.ofTyped, hp] at h
      | none =>
        rcases t.request_cases i.entry with ⟨-, u, hr, hu⟩ | ⟨file, ha, -⟩
        · simp [Invocation.plan, Plan.ofArguments, ht, Plan.ofTyped, hp, hr, hu] at h
        · exact ⟨t, file, ht, hp, ha⟩

/-- A plan to scan is made of arguments in order, which do not name two sources. -/
theorem Invocation.admits_of_scan {r : Request} (hp : i.plan = .scan r) :
    ∃ t file, i.Admits t file ∧ ¬ (file.isSome = true ∧ t.expr.isSome = true) ∧
      r = ⟨t.source file, t.flags⟩ := by
  obtain ⟨t, file, h⟩ := admits_iff.2 (.inl ⟨r, hp⟩)
  have hq := h.plan.symm.trans hp
  split at hq
  · exact absurd hq (by simp)
  · next hc => exact ⟨t, file, h, hc, (Plan.scan.inj hq).symm⟩

end Admission

section Outcome

variable {i : Invocation} {r : Request}

theorem Invocation.run_of_refused {refusal : Refusal} (hp : i.plan = .scan r)
    (he : i.environment.settings = .error refusal) :
    i.run = { exit := .invalidArguments, stderr := refusal.fault.report false } := by
  simp only [run, hp, Request.run, he]
  rfl

theorem Invocation.run_of_undecodable {e : Settings} {f : Text.Utf8.Fault}
    (hp : i.plan = .scan r) (he : i.environment.settings = .ok e)
    (hs : r.source.text i.input = .error (.undecodable f)) :
    ∃ stderr, i.run = { exit := .internalError, stderr } := by
  simp only [run, hp, Request.run, he, Request.runWith, hs]
  exact ⟨_, rfl⟩

end Outcome

end Lexeme.Command
