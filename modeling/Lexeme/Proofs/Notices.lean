import Lexeme.Proofs.Cleaning
import Lexeme.Proofs.Pieces
import Lexeme.Proofs.Unquoting

/-!
What notices look like where they are shown. A notice that holds what anyone may have put there in
quoted form, so that nothing but printable characters is in it, has no control sequences to lose and
no line ends of its own: it comes out whole, in two lines. So does the notice of a foreign point, by
`report_ofPoint`, whose text `foreignReport` gives in full.
-/

namespace Lexeme

open Text (isPrintable)

/-- A text of two lines, one for a fault and one for a hint. -/
def TwoLines (s : Text) : Prop :=
  ∃ fault hint, '\n' ∉ fault ∧ '\n' ∉ hint ∧
    s = "error: ".toList ++ fault ++ '\n' :: ("hint: ".toList ++ hint ++ ['\n'])

/-- A notice that holds nothing but printable characters, and has a hint. -/
structure Notice.Printable (n : Notice) (description hint : Text) : Prop where
  description_eq : n.description = Raw.ofText description
  description : description.all isPrintable = true
  hint_eq : n.hint = some hint
  hint : hint ≠ [] ∧ hint.all isPrintable = true

/-- A description and a hint, each on a line. -/
def Notice.lines (description hint : Text) : Text :=
  "error: ".toList ++ description ++ '\n' :: ("hint: ".toList ++ hint)

theorem Notice.lines_eq (description hint : Text) : lines description hint =
    "error: ".toList ++ description ++ '\n' :: ("hint: ".toList ++ hint) := rfl

/-- The report of a foreign point: the point in quotes, its number in at least four hexadecimal
digits, and a hint on a line of its own. -/
def foreignReport (p : Point) : Text :=
  "error: ".toList ++ ("illegal character ".toList ++ Raw.quoted [p] ++ " (U+".toList ++
    ((Nat.toDigits 16 p.number).leftpad 4 '0').map Char.toUpper ++ [')']) ++ '\n' ::
  ("hint: ".toList ++ "remove the character or replace it with a supported operator".toList ++
    ['\n'])

section Printable

theorem not_mem_of_printable {s : Text} {c : Char} (hs : s.all isPrintable = true)
    (hc : isPrintable c = false) : c ∉ s := by
  intro hm
  rw [List.all_eq_true.1 hs c hm] at hc
  exact absurd hc (by simp)

theorem Text.Hex.isPrintable_of_mem_upper {least n : Nat} {c : Char} (h : c ∈ upper least n) :
    isPrintable c = true := by
  obtain ⟨d, hd, rfl⟩ := List.mem_map.1 h
  obtain ⟨k, hk, rfl⟩ := exists_of_mem_fixed hd
  have table : ∀ k < 16, isPrintable (Nat.digitChar k).toUpper = true := by decide
  exact table k hk

theorem Text.Quoted.isPrintable_of_mem_numeric {n : Nat} {c : Char} (h : c ∈ numeric n) :
    isPrintable c = true := by
  obtain ⟨letter, width, he, hl⟩ : ∃ letter width,
      numeric n = backslash :: letter :: Hex.fixed width n ∧ isPrintable letter = true := by
    unfold numeric
    split
    · exact ⟨'x', 2, rfl, by decide⟩
    split
    · exact ⟨'u', 4, rfl, by decide⟩
    · exact ⟨'U', 8, rfl, by decide⟩
  rw [he, List.mem_cons, List.mem_cons] at h
  rcases h with rfl | rfl | h
  · decide
  · exact hl
  · exact isPrintable_of_mem_fixed h

theorem Raw.isPrintable_of_mem_quoted {s : Raw} {c : Char} (h : c ∈ s.quoted) :
    isPrintable c = true := by
  have hq := Text.Quoted.isQuote_quoteFor (s.filterMap Point.char?)
  have hp : isPrintable (Text.Quoted.quoteFor (s.filterMap Point.char?)) = true := by
    rcases hq with h | h <;> rw [h] <;> decide
  simp only [quoted, List.cons_append, List.mem_cons, List.mem_append, List.not_mem_nil, or_false]
    at h
  rcases h with rfl | h | rfl
  · exact hp
  · obtain ⟨p, -, hm⟩ := List.mem_flatMap.1 h
    cases p with
    | char d => exact Text.Quoted.isPrintable_of_mem_escape hq hm
    | surrogate x => exact Text.Quoted.isPrintable_of_mem_numeric hm
  · exact hp

theorem Raw.mem_escaped_iff {s : Raw} {c : Char} (hc : isPrintable c = false) :
    c ∈ s.escaped ↔ .char c ∈ s := by
  have hn (x : Surrogate) : c ∉ Text.Quoted.numeric x.number := by
    intro h
    rw [Text.Quoted.isPrintable_of_mem_numeric h] at hc
    exact absurd hc (by simp)
  rw [escaped, List.mem_flatMap]
  constructor
  · rintro ⟨p, hp, h⟩
    cases p with
    | char d =>
      obtain rfl := List.mem_singleton.1 h
      exact hp
    | surrogate x => exact absurd h (hn x)
  · intro h
    exact ⟨_, h, List.mem_singleton.2 rfl⟩

end Printable

section Notices

theorem Fault.message_of_notice {f : Fault} {n : Notice} (h : f.notice? = some n) :
    f.message = n.text := by
  cases f with
  | general m | settings m | illegal t c | stray x =>
    obtain rfl := Option.some.inj h
    rfl
  | _ => exact absurd h (by simp [notice?])

theorem Fault.report_of_notice {f : Fault} {n : Notice} (h : f.notice? = some n) (verbose : Bool) :
    f.report verbose = n.text.printed.escaped := by
  have hx : f.exitCode ≠ .internalError := by
    cases f with
    | general m | settings m | illegal t c | stray x => simp [exitCode]
    | _ => exact absurd h (by simp [notice?])
  rw [report, heading, h, message_of_notice h]
  simp [hx, Raw.ofText]

theorem Notice.text_of_hint {n : Notice} {hint : Text} (h : n.hint = some hint) (hn : hint ≠ []) :
    n.text = Raw.ofText "error: ".toList ++ n.description ++
      Raw.ofText ('\n' :: ("hint: ".toList ++ hint)) := by
  obtain ⟨c, rest, rfl⟩ := List.exists_cons_of_ne_nil hn
  obtain ⟨description, hint⟩ := n
  obtain rfl : hint = some (c :: rest) := h
  rfl

namespace Notice.Printable

variable {n : Notice} {description hint : Text}

theorem text_eq (h : n.Printable description hint) :
    n.text = Raw.ofText (lines description hint) := by
  rw [text_of_hint h.hint_eq h.hint.1, h.description_eq]
  simp only [lines_eq, Raw.ofText, List.map_append]

theorem twoLines (h : n.Printable description hint) :
    TwoLines (lines description hint ++ ['\n']) := by
  have hl : isPrintable '\n' = false := by decide
  refine ⟨description, hint, not_mem_of_printable h.description hl,
    not_mem_of_printable h.hint.2 hl, ?_⟩
  simp only [lines_eq, List.append_assoc, List.cons_append]

theorem mem_lines (h : n.Printable description hint) :
    ∀ c ∈ lines description hint, c = '\n' ∨ isPrintable c = true := by
  have he : "error: ".toList.all isPrintable = true := by decide
  have hh : "hint: ".toList.all isPrintable = true := by decide
  intro c hc
  simp only [lines_eq, List.mem_append, List.mem_cons] at hc
  rcases hc with (hc | hc) | hc | hc | hc
  · exact .inr (List.all_eq_true.1 he c hc)
  · exact .inr (List.all_eq_true.1 h.description c hc)
  · exact .inl hc
  · exact .inr (List.all_eq_true.1 hh c hc)
  · exact .inr (List.all_eq_true.1 h.hint.2 c hc)

theorem printed (h : n.Printable description hint) :
    n.text.printed = Raw.ofText (lines description hint ++ ['\n']) := by
  rw [h.text_eq, Raw.printed_ofText, Text.printed_of_not_escape]
  intro hm
  exact absurd (h.mem_lines _ hm) (by decide)

end Notice.Printable

end Notices

section Foreign

theorem Fault.notice?_ofPoint (p : Point) :
    (ofPiece (.ofPoint p)).notice? = some (foreignNotice (Raw.quoted [p]) p.number) := by
  cases p with
  | char c =>
    have hq : Raw.quoted [.char c] = Text.quoted [c] := Raw.quoted_ofText [c]
    rw [hq]
    rfl
  | surrogate x => rfl

theorem foreignNotice_printable (p : Point) :
    (Fault.foreignNotice (Raw.quoted [p]) p.number).Printable
      ("illegal character ".toList ++ Raw.quoted [p] ++ " (U+".toList ++
        Text.Hex.upper 4 p.number ++ [')'])
      "remove the character or replace it with a supported operator".toList := by
  refine ⟨rfl, ?_, rfl, by decide⟩
  have hf : "illegal character ".toList.all isPrintable = true := by decide
  have hm : " (U+".toList.all isPrintable = true := by decide
  have hl : [')'].all isPrintable = true := by decide
  have hq : (Raw.quoted [p]).all isPrintable = true :=
    List.all_eq_true.2 fun _ => Raw.isPrintable_of_mem_quoted
  have hx : (Text.Hex.upper 4 p.number).all isPrintable = true :=
    List.all_eq_true.2 fun _ => Text.Hex.isPrintable_of_mem_upper
  rw [List.all_append, List.all_append, List.all_append, List.all_append, hf, hq, hm, hx, hl]
  rfl

theorem Fault.report_ofPoint (p : Point) (verbose : Bool) :
    (ofPiece (.ofPoint p)).report verbose = foreignReport p := by
  rw [report_of_notice (notice?_ofPoint p), (foreignNotice_printable p).printed, Raw.escaped_ofText,
    Notice.lines_eq, Text.Hex.upper_eq, List.append_assoc]
  rfl

end Foreign

section Unwritable

open Text.ControlSequence (escape)

theorem escape_not_mem_decimal (n : Nat) : escape ∉ Text.decimal n := by
  intro h
  have hd := Nat.isDigit_of_mem_toDigits (by decide) (by decide) h
  exact absurd hd (by decide)

theorem Raw.Unwritable.escape_not_mem_text (u : Unwritable) : escape ∉ u.text := by
  have hn : escape ∉ Text.Quoted.numeric u.first.number := by
    intro h
    exact absurd (Text.Quoted.isPrintable_of_mem_numeric h) (by decide)
  -- Its equation would have the words of the message evaluated.
  delta text
  split <;> simp only [List.mem_append, List.mem_cons, escape_not_mem_decimal, hn, or_false] <;>
    decide

/-- The report of what cannot be written, and the steps that led to it in a verbose run. -/
theorem Fault.report_unwritable (u : Raw.Unwritable) (verbose : Bool) :
    (unwritable u).report verbose =
      "Internal error: ".toList ++ u.text ++ ['\n'] ++ if verbose then stepsLine else [] := by
  have hm : escape ∉ "Internal error: ".toList ++ u.text := by
    rw [List.mem_append, not_or]
    exact ⟨by decide, u.escape_not_mem_text⟩
  have hp : Raw.printed (Raw.ofText (unwritable u).heading ++ (unwritable u).message) =
      Raw.ofText ("Internal error: ".toList ++ u.text ++ ['\n']) := by
    rw [← Text.printed_of_not_escape hm, ← Raw.printed_ofText, Raw.ofText, Raw.ofText,
      List.map_append]
    rfl
  rw [report, hp, Raw.escaped_ofText]
  cases verbose <;> rfl

example : Raw.Unwritable.text ⟨8, ⟨0x4ff⟩, 0⟩ =
      "'utf-8' codec can't encode character '\\udcff' in position 8: surrogates not allowed".toList ∧
    Raw.Unwritable.text ⟨8, ⟨0x4ff⟩, 2⟩ =
      "'utf-8' codec can't encode characters in position 8-10: surrogates not allowed".toList := by
  exact ⟨rfl, rfl⟩

end Unwritable

end Lexeme
