import Lexeme.Proofs.Reading

/-!
The scanner reads the written language and nothing else. A text has exactly one proper layout, and
scanning finds it: each step of a scan splits the first row off a proper layout, and a row may be
put in front of a proper layout just where a reading step would stop (`proper_after_iff`). The main
statement is `tokenize_eq_iff_layout`: scanning is sound, complete and unambiguous.
-/

namespace Lexeme

theorem Token.runsInto_iff {t u : Token} {c : Char} (ht : t.WellFormed) (hu : u.WellFormed)
    (hc : u.text.head? = some c) : t.RunsInto u ↔ t.kind.Takes c := by
  have hk := hu.charClass (List.mem_of_mem_head? hc)
  rw [RunsInto, isWord_iff ht, isWord_iff hu, kind_eq_int_iff (t := u), ← hk, hc,
    CharClass.of_eq_word_iff, CharClass.of_eq_digit_iff]
  obtain ⟨kind, text⟩ := t
  cases kind with
  | eof => exact ht.elim
  | illegal | ident | int | mark m | keyword k => simp [Kind.Takes, Kind.charClass]

namespace Layout

def after (gap : Text) (t : Token) (l : Layout) : Layout := ⟨(gap, t) :: l.rows, l.last⟩

/-- The layout that scanning finds in a text. -/
def ofText (s : Text) : Layout where
  rows := (scan s).map fun f => (f.gap, f.token)
  last := ((scan s).getLast?.map Found.rest).getD s

theorem text_after {gap : Text} {t : Token} {l : Layout} :
    (l.after gap t).text = gap ++ t.text ++ l.text := by
  simp [after, text]

theorem tokens_ofText (s : Text) : (ofText s).tokens = lexemes s := by
  simp [ofText, tokens, lexemes]

theorem ofText_of_none {s : Text} (h : next? s = none) : ofText s = ⟨[], s⟩ := by
  simp [ofText, scan_of_none h]

theorem ofText_of_some {s : Text} {f : Found} (h : next? s = some f) :
    ofText s = (ofText f.rest).after f.gap f.token := by
  cases hr : scan f.rest with
  | nil => simp [ofText, after, scan_of_some h, hr]
  | cons g fs =>
    have hg := List.getLast?_eq_some_getLast (List.cons_ne_nil g fs)
    simp [ofText, after, scan_of_some h, hr, hg]

theorem stopsAt_text_iff {t : Token} {l : Layout} (ht : t.WellFormed) (hl : l.Proper) :
    t.kind.StopsAt l.text ↔ ∀ u, l.rows.head? = some ([], u) → ¬ t.RunsInto u := by
  obtain ⟨rows, last⟩ := l
  cases rows with
  | nil =>
    have hs : t.kind.StopsAt (text ⟨[], last⟩) := by
      intro c hc
      have hm : c ∈ last := List.mem_of_mem_head? (by simpa [text] using hc)
      exact Kind.not_takes_space (hl.last c hm)
    simp [hs]
  | cons r rows =>
    obtain ⟨gap, u⟩ := r
    cases gap with
    | nil =>
      have hu : u.WellFormed := hl.tokens ([], u) List.mem_cons_self
      obtain ⟨c, w, hw⟩ := List.exists_cons_of_ne_nil hu.text_ne_nil
      have hr := Token.runsInto_iff ht hu (c := c) (by simp [hw])
      simp [Kind.StopsAt, text, hw, hr]
    | cons d gap =>
      have hd : isSpace d = true := hl.gaps (d :: gap, u) List.mem_cons_self d List.mem_cons_self
      simp [Kind.StopsAt, text, Kind.not_takes_space hd]

theorem apart_cons_iff {gap : Text} {t : Token} {rows : List (Text × Token)} :
    Apart ((gap, t) :: rows) ↔
      (∀ u, rows.head? = some ([], u) → ¬ t.RunsInto u) ∧ Apart rows := by
  cases rows with
  | nil => simp [Apart]
  | cons r rows =>
    obtain ⟨gap', u⟩ := r
    simp only [Apart, List.head?_cons, Option.some.injEq, Prod.mk.injEq]
    grind

theorem proper_after_iff {gap : Text} {t : Token} {l : Layout} :
    (l.after gap t).Proper ↔ l.Proper ∧ (⟨gap, t, l.text⟩ : Found).Proper := by
  constructor
  · intro h
    have ha := apart_cons_iff.1 h.apart
    have hl : l.Proper :=
      ⟨fun r hr => h.gaps r (List.mem_cons_of_mem _ hr), h.last,
        fun r hr => h.tokens r (List.mem_cons_of_mem _ hr), ha.2⟩
    have ht : t.WellFormed := h.tokens (gap, t) List.mem_cons_self
    exact ⟨hl, h.gaps (gap, t) List.mem_cons_self, ht, (stopsAt_text_iff ht hl).2 ha.1⟩
  · intro h
    obtain ⟨hl, hg, ht, hs⟩ := h
    have ha : Apart ((gap, t) :: l.rows) :=
      apart_cons_iff.2 ⟨(stopsAt_text_iff ht hl).1 hs, hl.apart⟩
    exact ⟨List.forall_mem_cons.2 ⟨hg, hl.gaps⟩, hl.last,
      List.forall_mem_cons.2 ⟨ht, hl.tokens⟩, ha⟩

theorem ofText_proper (s : Text) : (ofText s).Proper ∧ (ofText s).text = s := by
  induction s using scan.induct with
  | case1 s h =>
    rw [ofText_of_none h]
    exact ⟨⟨by simp, next?_eq_none_iff.1 h, by simp, trivial⟩, by simp [text]⟩
  | case2 s f h ih =>
    obtain ⟨hp, hs⟩ := next?_eq_some_iff.1 h
    rw [ofText_of_some h, proper_after_iff, text_after, ih.2]
    exact ⟨⟨ih.1, hp⟩, hs⟩

theorem Proper.eq_ofText {l : Layout} (h : l.Proper) : l = ofText l.text := by
  obtain ⟨rows, last⟩ := l
  induction rows with
  | nil =>
    have hn : next? last = none := next?_eq_none_iff.2 h.last
    simpa [text] using (ofText_of_none hn).symm
  | cons r rows ih =>
    obtain ⟨gap, t⟩ := r
    obtain ⟨hl, hf⟩ := proper_after_iff (l := ⟨rows, last⟩).1 h
    have hn := next?_eq_some_iff.2 ⟨hf, rfl⟩
    have ho := ofText_of_some hn
    rw [← ih hl, ← text_after] at ho
    exact ho.symm

end Layout

theorem wellFormed_of_mem_lexemes {s : Text} {t : Token} (h : t ∈ lexemes s) : t.WellFormed := by
  rw [← Layout.tokens_ofText, Layout.tokens, List.mem_map] at h
  obtain ⟨r, hr, rfl⟩ := h
  exact (Layout.ofText_proper s).1.tokens r hr

theorem tokenize_eq_iff_layout (s : Text) :
    (∃! l : Layout, l.Proper ∧ l.text = s) ∧
    ∀ ts, tokenize s = ts ↔
      ∃ l : Layout, l.Proper ∧ l.text = s ∧ ts = l.tokens ++ [Token.eof] := by
  have only : ∀ l : Layout, l.Proper ∧ l.text = s → l = Layout.ofText s := by
    intro l h
    obtain ⟨hl, rfl⟩ := h
    exact hl.eq_ofText
  have hs := Layout.ofText_proper s
  refine ⟨⟨Layout.ofText s, hs, only⟩, ?_⟩
  intro ts
  constructor
  · intro h
    subst h
    exact ⟨Layout.ofText s, hs.1, hs.2, by rw [Layout.tokens_ofText, tokenize]⟩
  · intro h
    obtain ⟨l, hl, ht, rfl⟩ := h
    rw [only l ⟨hl, ht⟩, Layout.tokens_ofText, tokenize]

end Lexeme
