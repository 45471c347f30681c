import Lexeme.Proofs.Spelling
import Lexeme.Settings.Environment

/-!
What the variables of an environment say. A flag is a word in any case, with any blanks around it; a
format is a name in any case, and blanks are no part of a name. Each variable stands for its own
setting, and of several that say nothing the first in the order of reading is refused. The main
statement is `settings_by_spelling`.
-/

namespace Lexeme

open Text

namespace Flag

def words : Bool → List Text
  | true => ["1".toList, "true".toList, "yes".toList, "on".toList]
  | false => ["0".toList, "false".toList, "no".toList, "off".toList, []]

/-- A flag that is not set is off; one that is set is a word for on or for off, spelled freely. -/
inductive Says : Option Raw → Bool → Prop
  | unset : Says none false
  | spelled {value inner word : Text} {b : Bool} (hp : Padded value inner)
      (hr : Recases inner word) (hw : word ∈ words b) : Says (some (Raw.ofText value)) b

variable {x : Variable} {value : Option Raw} {v : Raw} {word : Text} {b : Bool} {r : Refusal}

theorem unshared_of_mem_words (hw : word ∈ words b) : ∀ d ∈ word, Lowercase.Unshared d := by
  have table : ∀ b, ∀ word ∈ words b, word.all fun d => Lowercase.Unshared d := by decide
  simpa using List.all_eq_true.1 (table b word hw)

theorem not_isBlank_of_mem_words (hw : word ∈ words b) :
    ∀ d ∈ word, isBlank d = false ∧ isBlank d.toUpper = false := by
  have table : ∀ b, ∀ word ∈ words b, word.all fun d =>
      isBlank d = false ∧ isBlank d.toUpper = false := by decide
  simpa using List.all_eq_true.1 (table b word hw)

theorem ofCanonical?_eq_some_iff : ofCanonical? v = some b ↔ ∃ w ∈ words b, v = Raw.ofText w := by
  have apart : ∀ w ∈ no, w ∉ yes := by decide
  have hw : (words b).map Raw.ofText = match b with | true => yes | false => no := by
    cases b <;> rfl
  have hv : (∃ w ∈ words b, v = Raw.ofText w) ↔ v ∈ (words b).map Raw.ofText := by
    simp only [List.mem_map, eq_comm]
  rw [hv, hw]
  unfold ofCanonical?
  by_cases hy : v ∈ yes
  · have hn : v ∉ no := fun hn => apart v hn hy
    cases b <;> simp [hy, hn]
  · cases b <;> simp [hy]

theorem says_some_iff : Says (some v) b ↔ ∃ w ∈ words b, canonical v = Raw.ofText w := by
  constructor
  · intro h
    cases h with
    | @spelled value inner word _ hp hr hw =>
      have hf := hr.forall_mem (not_isBlank_of_mem_words hw)
      have hl := (lowercase_eq_iff_recases (unshared_of_mem_words hw)).2 hr
      refine ⟨word, hw, Raw.lowercase_trim_eq_ofText_iff.2 ⟨value, rfl, ?_⟩⟩
      rw [hp.trim_eq hf, hl]
  · rintro ⟨word, hw, hc⟩
    obtain ⟨t, rfl, hl⟩ := Raw.lowercase_trim_eq_ofText_iff.1 hc
    exact .spelled (padded_trim t) ((lowercase_eq_iff_recases (unshared_of_mem_words hw)).1 hl) hw

theorem read_eq_ok_iff : read x value = .ok b ↔ Says value b := by
  cases value with
  | none =>
    constructor
    · intro h
      obtain rfl := Except.ok.inj h
      exact .unset
    · intro h
      cases h
      rfl
  | some v =>
    rw [says_some_iff, ← ofCanonical?_eq_some_iff, read]
    cases ofCanonical? (canonical v) <;> simp

theorem read_eq_error_iff : read x value = .error r ↔
    (∀ b, ¬ Says value b) ∧ ∃ v, value = some v ∧ r = .unclearFlag x (canonical v) := by
  simp only [← read_eq_ok_iff (x := x)]
  cases value with
  | none => simp [read]
  | some v =>
    rw [read]
    cases ofCanonical? (canonical v) <;> simp [eq_comm]

theorem Says.unique {a : Bool} (ha : Says value a) (hb : Says value b) : a = b :=
  Except.ok.inj ((read_eq_ok_iff (x := .strict).2 ha).symm.trans (read_eq_ok_iff.2 hb))

end Flag

namespace Format

/-- Lines of text are what is printed when no format is asked for. -/
inductive Says : Option Raw → Format → Prop
  | unset : Says none .text
  | empty : Says (some []) .text
  | text {value : Text} (hr : Recases value "text".toList) : Says (some (Raw.ofText value)) .text
  | json {value : Text} (hr : Recases value "json".toList) : Says (some (Raw.ofText value)) .json

variable {value : Option Raw} {v : Text} {f : Format} {r : Refusal}

theorem read_eq_ok_iff {s : Raw} : Format.read s = .ok f ↔ s = Raw.ofText f.name := by
  have ht : s.text?.bind ofName? = some f ↔ s = Raw.ofText f.name := by
    simp only [Option.bind_eq_some_iff, Raw.text?_eq_some_iff, ofName?_eq_some_iff]
    constructor
    · rintro ⟨t, hs, rfl⟩
      exact hs
    · intro hs
      exact ⟨_, hs, rfl⟩
  rw [← ht, Format.read]
  cases s.text?.bind ofName? <;> simp

theorem read_eq_error_iff {s : Raw} :
    Format.read s = .error r ↔ (∀ f, Format.read s ≠ .ok f) ∧ r = .unknownFormat s := by
  rw [Format.read]
  cases s.text?.bind ofName? <;> simp [eq_comm]

theorem name_eq_lowercase_iff : f.name = v.lowercase ↔ Recases v f.name := by
  have table : ∀ f ∈ all, f.name.all fun d => Lowercase.Unshared d := by decide
  have hu : ∀ d ∈ f.name, Lowercase.Unshared d := by
    simpa using List.all_eq_true.1 (table f (mem_all f))
  rw [eq_comm, lowercase_eq_iff_recases hu]

theorem read_formatName_iff :
    Format.read (Environment.formatName value) = .ok f ↔ Says value f := by
  rw [read_eq_ok_iff]
  constructor
  · intro h
    match value with
    | none =>
      obtain rfl : .text = f := name_injective (Raw.ofText_injective h)
      exact .unset
    | some [] =>
      obtain rfl : .text = f := name_injective (Raw.ofText_injective h)
      exact .empty
    | some (p :: s) =>
      obtain ⟨t, ht, hl⟩ := Raw.lowercase_eq_ofText_iff.1 h
      have hr := name_eq_lowercase_iff.1 hl.symm
      rw [ht]
      cases f with
      | text => exact .text hr
      | json => exact .json hr
  · intro h
    cases h with
    | unset => rfl
    | empty => rfl
    | text hr | json hr =>
      rw [Environment.formatName, Raw.lowercase_ofText]
      · exact congrArg Raw.ofText (name_eq_lowercase_iff.2 hr).symm
      · intro hn
        obtain rfl := Raw.ofText_injective (t := _) (u := []) hn
        cases hr

theorem read_formatName_eq_error_iff : Format.read (Environment.formatName value) = .error r ↔
    (∀ f, ¬ Says value f) ∧ ∃ v, value = some v ∧ r = .unknownFormat v.lowercase := by
  simp only [read_eq_error_iff, ne_eq, read_formatName_iff]
  refine and_congr_right fun h => ?_
  match value with
  | none => exact absurd .unset (h .text)
  | some [] => exact absurd .empty (h .text)
  | some (p :: s) => simp [Environment.formatName]

theorem Says.unique {g : Format} (hf : Says value f) (hg : Says value g) : f = g :=
  Except.ok.inj ((read_formatName_iff.2 hf).symm.trans (read_formatName_iff.2 hg))

end Format

namespace Environment

variable {e : Environment} {c : Settings} {r : Refusal}

structure Says (e : Environment) (c : Settings) : Prop where
  format : Format.Says e.format c.format
  strict : Flag.Says e.strict c.strict
  verbose : Flag.Says e.verbose c.verbose
  includeEof : c.includeEof = true

/-- The variable says something. -/
def Accepts (e : Environment) : Variable → Prop
  | .format => ∃ f, Format.Says e.format f
  | .strict => ∃ b, Flag.Says e.strict b
  | .verbose => ∃ b, Flag.Says e.verbose b

/-- The first variable in the order of reading that says nothing is refused, with its value. -/
inductive Refuses (e : Environment) : Refusal → Prop
  | strict {v : Raw} (hs : ¬ e.Accepts .strict) (hv : e.strict = some v) :
      Refuses e (.unclearFlag .strict v.trim.lowercase)
  | verbose {v : Raw} (hs : e.Accepts .strict) (hb : ¬ e.Accepts .verbose)
      (hv : e.verbose = some v) : Refuses e (.unclearFlag .verbose v.trim.lowercase)
  | format {v : Raw} (hs : e.Accepts .strict) (hb : e.Accepts .verbose) (hf : ¬ e.Accepts .format)
      (hv : e.format = some v) : Refuses e (.unknownFormat v.lowercase)

theorem settings_eq_ok_iff : e.settings = .ok c ↔ e.Says c := by
  simp only [settings, bind_eq_ok_iff, Flag.read_eq_ok_iff, Format.read_formatName_iff]
  constructor
  · rintro ⟨s, hs, b, hb, f, hf, h⟩
    obtain rfl := Except.ok.inj h
    exact ⟨hf, hs, hb, rfl⟩
  · rintro ⟨hf, hs, hb, hi⟩
    exact ⟨_, hs, _, hb, _, hf, by rw [← hi]; rfl⟩

theorem settings_eq_error_iff : e.settings = .error r ↔ e.Refuses r := by
  simp only [settings, bind_eq_error_iff, Flag.read_eq_error_iff, Flag.read_eq_ok_iff,
    Format.read_formatName_eq_error_iff, Format.read_formatName_iff]
  constructor
  · rintro (⟨hs, v, hv, rfl⟩ | ⟨s, hs, ⟨hb, v, hv, rfl⟩ | ⟨b, hb, ⟨hf, v, hv, rfl⟩ | ⟨f, hf, h⟩⟩⟩)
    · exact .strict (not_exists.2 hs) hv
    · exact .verbose ⟨s, hs⟩ (not_exists.2 hb) hv
    · exact .format ⟨s, hs⟩ ⟨b, hb⟩ (not_exists.2 hf) hv
    · cases h
  · intro h
    cases h with
    | strict hs hv => exact .inl ⟨not_exists.1 hs, _, hv, rfl⟩
    | verbose hs hb hv =>
      obtain ⟨s, hs⟩ := hs
      exact .inr ⟨s, hs, .inl ⟨not_exists.1 hb, _, hv, rfl⟩⟩
    | format hs hb hf hv =>
      obtain ⟨s, hs⟩ := hs
      obtain ⟨b, hb⟩ := hb
      exact .inr ⟨s, hs, .inr ⟨b, hb, .inl ⟨not_exists.1 hf, _, hv, rfl⟩⟩⟩

theorem settings_by_spelling (e : Environment) :
    (∀ c, e.settings = .ok c ↔ e.Says c) ∧
    ((∃ c, e.settings = .ok c) ↔ ∀ x, e.Accepts x) ∧
    (∀ r, e.settings = .error r ↔ e.Refuses r) ∧
    (∀ (e' : Environment) (c c' : Settings), e.settings = .ok c → e'.settings = .ok c' →
      (e.format = e'.format → c.format = c'.format) ∧
      (e.strict = e'.strict → c.strict = c'.strict) ∧
      (e.verbose = e'.verbose → c.verbose = c'.verbose)) := by
  refine ⟨fun c => settings_eq_ok_iff, ?_, fun r => settings_eq_error_iff, ?_⟩
  · simp only [settings_eq_ok_iff]
    constructor
    · rintro ⟨c, h⟩ (_ | _ | _)
      · exact ⟨_, h.format⟩
      · exact ⟨_, h.strict⟩
      · exact ⟨_, h.verbose⟩
    · intro h
      obtain ⟨f, hf⟩ := h .format
      obtain ⟨s, hs⟩ := h .strict
      obtain ⟨b, hb⟩ := h .verbose
      exact ⟨⟨f, true, s, b⟩, hf, hs, hb, rfl⟩
  · intro e' c c' h h'
    have hc := settings_eq_ok_iff.1 h
    have hc' := settings_eq_ok_iff.1 h'
    refine ⟨fun he => ?_, fun he => ?_, fun he => ?_⟩
    · exact hc.format.unique (he ▸ hc'.format)
    · exact hc.strict.unique (he ▸ hc'.strict)
    · exact hc.verbose.unique (he ▸ hc'.verbose)

theorem settings_of_padded_flag :
    let set (value : String) : Option Raw := some (Raw.ofText value.toList)
    let e : Environment := { format := set "JsOn", strict := set "\tyES \n" }
    let bad : Environment := { e with format := set " JsOn", verbose := set "May" }
    let other : Environment := { strict := e.strict, verbose := some [] }
    e.Says { format := .json, strict := true } ∧
    bad.Refuses (.unclearFlag .verbose (Raw.ofText "may".toList)) ∧
    ∀ c, other.settings = .ok c → c.strict = true := by
  intro set e bad other
  have he : e.settings = .ok { format := .json, strict := true } := rfl
  obtain ⟨hok, -, -, hown⟩ := settings_by_spelling e
  obtain ⟨-, -, hbad, -⟩ := settings_by_spelling bad
  refine ⟨(hok _).1 he, (hbad _).1 rfl, fun c hc => ?_⟩
  exact ((hown other _ c he hc).2.1 rfl).symm

end Environment

end Lexeme
