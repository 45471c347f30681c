import Mathlib.Data.List.TakeWhile
import Lexeme.Proofs.CharClass

/-!
Reading one token is cutting a text in the one place where the written language allows a cut. A token
is read on into characters of its own class only, so whether a reading step stops shows in the next
character alone. The main statements describe a step without the scanner: `Token.read_eq_iff` for a
text that starts with a token, `next?_eq_none_iff` and `next?_eq_some_iff` for any text. From there
on, what holds of a whole scan is an induction over its steps.
-/

namespace Lexeme

/-- A token of a kind is read on into a character. -/
def Kind.Takes (k : Kind) (c : Char) : Prop :=
  match k with
  | .eof | .ident | .keyword _ => isWordChar c = true
  | .int => c.isDigit = true
  | .mark m => (m = .assign ∨ m = .bang) ∧ c = '='
  | .illegal => False

def Kind.StopsAt (k : Kind) (rest : Text) : Prop := ∀ c, rest.head? = some c → ¬ k.Takes c

namespace Text

variable {p : Char → Bool} {w rest : Text}

theorem head?_dropWhile {c : Char} (h : (w.dropWhile p).head? = some c) : p c = false := by
  have hn := List.head?_dropWhile_not p w
  rw [h] at hn
  exact hn

theorem takeWhile_append (hw : ∀ c ∈ w, p c = true)
    (hr : ∀ c, rest.head? = some c → p c = false) : (w ++ rest).takeWhile p = w := by
  have hs : rest.takeWhile p = [] := by
    cases rest with
    | nil => rfl
    | cons c s => simp [hr c rfl]
  rw [List.takeWhile_append_of_pos hw, hs, List.append_nil]

theorem dropWhile_append (hw : ∀ c ∈ w, p c = true)
    (hr : ∀ c, rest.head? = some c → p c = false) : (w ++ rest).dropWhile p = rest := by
  rw [List.dropWhile_append_of_pos hw]
  exact List.dropWhile_eq_self_iff.2 fun hl => by simp [hr, List.head?_eq_getElem?]

end Text

theorem Kind.charClass_of_takes {k : Kind} {c : Char} (h : k.Takes c) :
    CharClass.of c = k.charClass := by
  cases k with
  | illegal => exact h.elim
  | eof | ident | keyword w => exact CharClass.of_eq_word_iff.2 h
  | int => exact CharClass.of_eq_digit_iff.2 h
  | mark m =>
    obtain ⟨-, rfl⟩ := h
    exact CharClass.of_mem_mark (m := .assign) List.mem_cons_self

theorem Kind.not_takes_space {k : Kind} {c : Char} (h : isSpace c = true) : ¬ k.Takes c := by
  intro hk
  have hc := CharClass.of_eq_space_iff.2 h
  rw [charClass_of_takes hk] at hc
  exact k.charClass_ne_space hc

theorem Kind.takes_of_word {k : Kind} (h : k.charClass = .word) {c : Char} :
    k.Takes c ↔ isWordChar c = true := by
  cases k <;> simp [charClass, Takes] at h ⊢

theorem Kind.takes_of_digit {k : Kind} (h : k.charClass = .digit) {c : Char} :
    k.Takes c ↔ c.isDigit = true := by
  cases k <;> simp [charClass, Takes] at h ⊢

theorem Kind.StopsAt.append {k : Kind} {rest : Text} (h : k.StopsAt rest) (hr : rest ≠ [])
    (b : Text) : k.StopsAt (rest ++ b) := by
  obtain ⟨d, r, rfl⟩ := List.exists_cons_of_ne_nil hr
  exact h

theorem Mark.text_length (m : Mark) : (∃ c, m.text = [c]) ∨ ∃ c d, m.text = [c, d] := by
  cases m <;> simp [Mark.text]

theorem Mark.takes_iff {m : Mark} {c d : Char} (h : m.text = [c]) :
    (Kind.mark m).Takes d ↔ (Mark.pair? c d).isSome = true := by
  constructor
  · intro hk
    obtain ⟨hm, rfl⟩ := hk
    rcases hm with rfl | rfl
    · obtain rfl := List.singleton_inj.1 h
      decide
    · obtain rfl := List.singleton_inj.1 h
      decide
  · intro hp
    obtain ⟨n, hn⟩ := Option.isSome_iff_exists.1 hp
    have ht := Mark.pair?_eq_some_iff.1 hn
    cases n <;> simp [Mark.text] at ht
    case eq =>
      obtain ⟨rfl, rfl⟩ := ht
      exact ⟨.inl (Mark.text_injective h), rfl⟩
    case notEq =>
      obtain ⟨rfl, rfl⟩ := ht
      exact ⟨.inr (Mark.text_injective h), rfl⟩

theorem Mark.stopsAt_iff {m : Mark} {c : Char} {rest : Text} (h : m.text = [c]) :
    (Kind.mark m).StopsAt rest ↔ rest.head?.bind (Mark.pair? c) = none := by
  simp only [Kind.StopsAt, Mark.takes_iff h, Option.bind_eq_none_iff, Bool.not_eq_true,
    Option.isSome_eq_false_iff, Option.isNone_iff_eq_none]

namespace Token

theorem ofWord_wellFormed {s : Text} (hs : s ≠ []) (hw : ∀ c ∈ s, isWordChar c = true) :
    (ofWord s).WellFormed := by
  rw [ofWord]
  cases hk : Keyword.ofText? s with
  | none =>
    refine ⟨hs, hw, fun k hs => ?_⟩
    rw [Keyword.ofText?_eq_some_iff.2 hs.symm] at hk
    exact absurd hk (by simp)
  | some k => exact (Keyword.ofText?_eq_some_iff.1 hk).symm

theorem ofWord_takes {s : Text} {c : Char} :
    (ofWord s).kind.Takes c ↔ isWordChar c = true := by
  rw [ofWord]
  cases Keyword.ofText? s <;> exact Iff.rfl

theorem ofWord_text {t : Token} (h : t.WellFormed) (hw : t.kind.charClass = .word) :
    ofWord t.text = t := by
  obtain ⟨kind, text⟩ := t
  cases kind with
  | eof => exact h.elim
  | ident =>
    have hk : Keyword.ofText? text = none := by
      cases hk : Keyword.ofText? text with
      | none => rfl
      | some k => exact absurd (Keyword.ofText?_eq_some_iff.1 hk).symm (h.2.2 k)
    simp [ofWord, hk]
  | keyword k =>
    have hk : Keyword.ofText? text = some k := Keyword.ofText?_eq_some_iff.2 (Eq.symm h)
    simp [ofWord, hk]
  | illegal | int | mark m => exact absurd hw (by simp [Kind.charClass])

theorem readMark_wellFormed {c : Char} {rest : Text} (hw : isWordChar c = false)
    (hd : c.isDigit = false) (hs : isSpace c = false) : (readMark c rest).1.WellFormed := by
  rw [readMark]
  split
  · rfl
  split
  · rfl
  · next hm => exact ⟨c, rfl, by simp [isForeign, hw, hd, hs, hm]⟩

theorem read_wellFormed {c : Char} (hs : isSpace c = false) (rest : Text) :
    (read c rest).1.WellFormed := by
  rw [read]
  split
  · next hw =>
    refine ofWord_wellFormed (List.cons_ne_nil _ _) ?_
    simpa [hw] using fun d => List.mem_takeWhile_imp
  split
  · next hd =>
    refine ⟨List.cons_ne_nil _ _, ?_⟩
    simpa [hd] using fun d => List.mem_takeWhile_imp
  · next hw hd => exact readMark_wellFormed (by simpa using hw) (by simpa using hd) hs

theorem readMark_stopsAt (c : Char) (rest : Text) :
    (readMark c rest).1.kind.StopsAt (readMark c rest).2 := by
  rw [readMark]
  split
  · next m hm =>
    obtain ⟨d, hd, hm⟩ := Option.bind_eq_some_iff.1 hm
    have ht := Mark.pair?_eq_some_iff.1 hm
    intro e _ he
    obtain ⟨hm, -⟩ := he
    rcases hm with rfl | rfl
    · simp [Mark.text] at ht
    · simp [Mark.text] at ht
  · next hp =>
    split
    · next m hm => exact (Mark.stopsAt_iff (Mark.single?_eq_some_iff.1 hm)).2 hp
    · exact fun d _ h => h

theorem read_stopsAt (c : Char) (rest : Text) :
    (read c rest).1.kind.StopsAt (read c rest).2 := by
  rw [read]
  split
  · intro d hd h
    have hn := Text.head?_dropWhile hd
    exact absurd (ofWord_takes.1 h) (by simp [hn])
  split
  · intro d hd h
    have hn := Text.head?_dropWhile hd
    exact absurd h (by simp [Kind.Takes, hn])
  · exact readMark_stopsAt c rest

theorem read_word {c : Char} {w rest : Text} (hw : ∀ d ∈ c :: w, isWordChar d = true)
    (hr : ∀ d, rest.head? = some d → isWordChar d = false) :
    read c (w ++ rest) = (ofWord (c :: w), rest) := by
  have hc : isWordChar c = true := hw c List.mem_cons_self
  have hw : ∀ d ∈ w, isWordChar d = true := fun d hd => hw d (List.mem_cons_of_mem c hd)
  simp [read, hc, Text.takeWhile_append hw hr, Text.dropWhile_append hw hr]

theorem read_digits {c : Char} {w rest : Text} (hw : ∀ d ∈ c :: w, d.isDigit = true)
    (hr : ∀ d, rest.head? = some d → d.isDigit = false) :
    read c (w ++ rest) = (⟨.int, c :: w⟩, rest) := by
  have hc : c.isDigit = true := hw c List.mem_cons_self
  have hw : ∀ d ∈ w, d.isDigit = true := fun d hd => hw d (List.mem_cons_of_mem c hd)
  simp [read, hc, CharClass.isWordChar_of_isDigit hc, Text.takeWhile_append hw hr,
    Text.dropWhile_append hw hr]

theorem read_other {c : Char} {rest : Text} (hw : CharClass.of c ≠ .word)
    (hd : CharClass.of c ≠ .digit) : read c rest = readMark c rest := by
  rw [Ne, CharClass.of_eq_word_iff] at hw
  rw [Ne, CharClass.of_eq_digit_iff] at hd
  simp [read, hw, hd]

theorem readMark_mark {m : Mark} {c : Char} {w rest : Text} (ht : m.text = c :: w)
    (hr : (Kind.mark m).StopsAt rest) : readMark c (w ++ rest) = (ofMark m, rest) := by
  rcases m.text_length with ⟨d, hd⟩ | ⟨d, e, hd⟩
  · obtain ⟨rfl, rfl⟩ := List.cons.inj (hd.symm.trans ht)
    simp [readMark, (Mark.stopsAt_iff hd).1 hr, Mark.single?_eq_some_iff.2 hd]
  · obtain ⟨rfl, rfl⟩ := List.cons.inj (hd.symm.trans ht)
    simp [readMark, Mark.pair?_eq_some_iff.2 hd]

theorem readMark_foreign {c : Char} {rest : Text} (h : isForeign c = true) :
    readMark c rest = (⟨.illegal, [c]⟩, rest) := by
  have hc := CharClass.of_eq_foreign_iff.2 h
  have hs : Mark.single? c = none := by
    cases hm : Mark.single? c with
    | none => rfl
    | some m =>
      have hm : CharClass.of c = .mark := CharClass.of_eq_mark_iff.2 (by simp [hm])
      exact absurd hm (by simp [hc])
  have hp : rest.head?.bind (Mark.pair? c) = none := by
    rw [Option.bind_eq_none_iff]
    intro d _
    cases hm : Mark.pair? c d with
    | none => rfl
    | some m =>
      have hm : c ∈ m.text := by simp [Mark.pair?_eq_some_iff.1 hm]
      exact absurd (CharClass.of_mem_mark hm) (by simp [hc])
  simp [readMark, hp, hs]

theorem read_of_wellFormed {t : Token} {c : Char} {w rest : Text} (h : t.WellFormed)
    (hr : t.kind.StopsAt rest) (ht : t.text = c :: w) : read c (w ++ rest) = (t, rest) := by
  obtain ⟨kind, text⟩ := t
  subst ht
  have hc := fun e he => h.charClass (c := e) he
  have hd := hc c List.mem_cons_self
  cases kind with
  | eof => exact h.elim
  | illegal =>
    obtain ⟨e, he, hf⟩ := h
    obtain ⟨rfl, rfl⟩ := List.cons.inj he
    rw [read_other (by simp [hd, Kind.charClass]) (by simp [hd, Kind.charClass])]
    exact readMark_foreign hf
  | int => exact read_digits h.2 fun e he => by simpa [Kind.Takes] using hr e he
  | mark m =>
    have hm : c :: w = m.text := h
    rw [read_other (by simp [hd, Kind.charClass]) (by simp [hd, Kind.charClass]),
      readMark_mark hm.symm hr, ofMark, hm]
  | ident | keyword k =>
    rw [read_word (fun e he => CharClass.of_eq_word_iff.1 (hc e he))
      fun e he => by simpa [Kind.Takes] using hr e he]
    exact congrArg (·, rest) (ofWord_text h rfl)

theorem read_eq_iff {t : Token} {c : Char} {s rest : Text} (hc : isSpace c = false) :
    read c s = (t, rest) ↔ t.WellFormed ∧ t.kind.StopsAt rest ∧ t.text ++ rest = c :: s := by
  constructor
  · intro h
    have hw := read_wellFormed hc s
    have hr := read_stopsAt c s
    have hs := read_split c s
    rw [h] at hw hr hs
    exact ⟨hw, hr, hs⟩
  · intro h
    obtain ⟨hw, hr, hs⟩ := h
    obtain ⟨d, w, ht⟩ := List.exists_cons_of_ne_nil hw.text_ne_nil
    rw [ht, List.cons_append] at hs
    obtain ⟨rfl, rfl⟩ := List.cons.inj hs
    exact read_of_wellFormed hw hr ht

end Token

/-- A gap, a token that its kind admits, and a text into which that is not read on. -/
structure Found.Proper (f : Found) : Prop where
  gap : IsGap f.gap
  token : f.token.WellFormed
  stops : f.token.kind.StopsAt f.rest

theorem next?_eq_none_iff {s : Text} : next? s = none ↔ IsGap s := by
  rw [IsGap, ← List.dropWhile_eq_nil_iff]
  simp only [next?]
  split <;> simp_all

theorem next?_proper {s : Text} {f : Found} (h : next? s = some f) : f.Proper := by
  rw [next?] at h
  split at h
  · exact absurd h (by simp)
  · next c rest hs =>
    obtain rfl := Option.some.inj h
    have hc : isSpace c = false := Text.head?_dropWhile (w := s) (by rw [hs, List.head?_cons])
    obtain ⟨ht, hr, -⟩ := (Token.read_eq_iff (s := rest) hc).1 rfl
    exact ⟨fun d => List.mem_takeWhile_imp, ht, hr⟩

theorem next?_of_proper {f : Found} (h : f.Proper) :
    next? (f.gap ++ f.token.text ++ f.rest) = some f := by
  obtain ⟨c, w, ht⟩ := List.exists_cons_of_ne_nil h.token.text_ne_nil
  have hc : isSpace c = false := h.token.not_isSpace (ht ▸ List.mem_cons_self)
  have hd : ∀ d, (c :: (w ++ f.rest)).head? = some d → isSpace d = false := by
    intro d hd
    obtain rfl : c = d := by simpa using hd
    exact hc
  have hr : Token.read c (w ++ f.rest) = (f.token, f.rest) :=
    (Token.read_eq_iff hc).2 ⟨h.token, h.stops, by rw [ht, List.cons_append]⟩
  rw [ht, List.append_assoc, List.cons_append]
  simp [next?, Text.takeWhile_append h.gap hd, Text.dropWhile_append h.gap hd, hr]

theorem next?_eq_some_iff {s : Text} {f : Found} :
    next? s = some f ↔ f.Proper ∧ f.gap ++ f.token.text ++ f.rest = s := by
  constructor
  · intro h
    exact ⟨next?_proper h, (next?_split h).symm⟩
  · intro h
    obtain ⟨hp, rfl⟩ := h
    exact next?_of_proper hp

theorem placedFrom_scan (offset : Nat) (s : Text) :
    placedFrom offset (scan s) = (scan s).map fun f =>
      (offset + s.length - f.rest.length - f.token.text.length, f.token) := by
  induction s using scan.induct generalizing offset with
  | case1 s h => simp [scan_of_none h, placedFrom]
  | case2 s f h ih =>
    have hl := congrArg List.length (next?_split h)
    simp only [List.length_append] at hl
    simp only [scan_of_some h, placedFrom, List.map_cons, ih, List.cons.injEq, Prod.mk.injEq]
    refine ⟨⟨by omega, trivial⟩, List.map_congr_left fun g _ => ?_⟩
    simp only [Prod.mk.injEq, and_true]
    omega

theorem length_of_mem_scan {s : Text} {g : Found} (hg : g ∈ scan s) :
    g.token.text.length + g.rest.length ≤ s.length := by
  induction s using scan.induct with
  | case1 s h => simp [scan_of_none h] at hg
  | case2 s f h ih =>
    have hl := congrArg List.length (next?_split h)
    simp only [List.length_append] at hl
    rw [scan_of_some h] at hg
    rcases List.mem_cons.1 hg with hg | hg
    · subst hg
      omega
    · have := ih hg
      omega

theorem lexemes_of_gap {s : Text} (h : IsGap s) : lexemes s = [] := by
  rw [lexemes, scan_of_none (next?_eq_none_iff.2 h), List.map_nil]

theorem lexemes_of_next {s : Text} {f : Found} (h : next? s = some f) :
    lexemes s = f.token :: lexemes f.rest := by
  rw [lexemes, scan_of_some h, List.map_cons, lexemes]

theorem tokenize_of_gap {s : Text} (h : IsGap s) : tokenize s = [Token.eof] := by
  rw [tokenize, lexemes_of_gap h, List.nil_append]

theorem tokenize_of_next {s : Text} {f : Found} (h : next? s = some f) :
    tokenize s = f.token :: tokenize f.rest := by
  rw [tokenize, lexemes_of_next h, List.cons_append, tokenize]

end Lexeme
