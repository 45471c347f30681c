import Lexeme.Proofs.Reading

/-!
What scanning makes of two texts put together. The tokens of the first text are settled whatever
follows, but for a token that ends where the text ends; that one has to be read again together with
the second text. `tokenize_append_rescan` says so, and `tokenize_append_iff` says at which seams the
two texts may be scanned on their own. Both rest on one observation: whether a reading step stops
depends on the next character only, so a step that leaves some text over is not changed by more text.
-/

namespace Lexeme

/-- The last token of a text, if it ends where the text ends. -/
def touching? (s : Text) : Option Token :=
  match (placed s).getLast? with
  | some (offset, t) => if offset + t.text.length = s.length then some t else none
  | none => none

/-- The tokens of a text that no continuation changes. -/
def settled (s : Text) : List Token :=
  if (touching? s).isSome then (lexemes s).dropLast else lexemes s

/-- The part of a text to be read again with what follows it. -/
def unsettled (s : Text) : Text := ((touching? s).map Token.text).getD []

/-- Two texts between which a token would go on. -/
def Joined (a b : Text) : Prop :=
  (∃ c d, a.getLast? = some c ∧ b.head? = some d ∧ isWordChar c = true ∧ isWordChar d = true) ∨
  (∃ c d, a.getLast? = some c ∧ b.head? = some d ∧ c.isDigit = true ∧ d.isDigit = true) ∨
  (∃ t, touching? a = some t ∧ (t.kind = .mark .assign ∨ t.kind = .mark .bang) ∧
    b.head? = some '=')

theorem next?_append {s : Text} {f : Found} (h : next? s = some f) (hr : f.rest ≠ []) (b : Text) :
    next? (s ++ b) = some ⟨f.gap, f.token, f.rest ++ b⟩ := by
  obtain ⟨hp, hs⟩ := next?_eq_some_iff.1 h
  refine next?_eq_some_iff.2 ⟨⟨hp.gap, hp.token, hp.stops.append hr b⟩, ?_⟩
  simp [← hs]

theorem next?_gap_append {w s : Text} (hw : IsGap w) {f : Found} (h : next? s = some f) :
    next? (w ++ s) = some ⟨w ++ f.gap, f.token, f.rest⟩ := by
  obtain ⟨hp, hs⟩ := next?_eq_some_iff.1 h
  have hg : IsGap (w ++ f.gap) := List.forall_mem_append.2 ⟨hw, hp.gap⟩
  refine next?_eq_some_iff.2 ⟨⟨hg, hp.token, hp.stops⟩, ?_⟩
  simp [← hs]

theorem tokenize_gap_append {w : Text} (hw : IsGap w) (s : Text) :
    tokenize (w ++ s) = tokenize s := by
  cases h : next? s with
  | none =>
    have hs := next?_eq_none_iff.1 h
    rw [tokenize_of_gap hs, tokenize_of_gap (List.forall_mem_append.2 ⟨hw, hs⟩)]
  | some f => rw [tokenize_of_next h, tokenize_of_next (next?_gap_append hw h)]

theorem touching?_eq (s : Text) :
    touching? s = (scan s).getLast?.bind fun f => if f.rest = [] then some f.token else none := by
  rw [touching?, placed, placedFrom_scan, List.getLast?_map]
  cases h : (scan s).getLast? with
  | none => rfl
  | some f =>
    have hl := length_of_mem_scan (List.mem_of_getLast? h)
    have hr : s.length - f.rest.length - f.token.text.length + f.token.text.length = s.length ↔
        f.rest = [] := by
      rw [← List.length_eq_zero_iff]
      omega
    simp [hr]

theorem touching?_of_gap {s : Text} (h : IsGap s) : touching? s = none := by
  rw [touching?_eq, scan_of_none (next?_eq_none_iff.2 h)]
  rfl

theorem touching?_of_next {s : Text} {f : Found} (h : next? s = some f) :
    touching? s = if f.rest = [] then some f.token else touching? f.rest := by
  rw [touching?_eq, touching?_eq, scan_of_some h]
  cases hr : next? f.rest with
  | none => simp [scan_of_none hr]
  | some g =>
    have hn : f.rest ≠ [] := by
      intro hn
      rw [hn] at hr
      exact absurd hr (by simp [next?])
    rw [scan_of_some hr, List.getLast?_cons_cons, if_neg hn]

theorem touching?_wellFormed {s : Text} {t : Token} (h : touching? s = some t) :
    t.WellFormed ∧ t.text <:+ s := by
  induction s using scan.induct with
  | case1 s hn => simp [touching?_of_gap (next?_eq_none_iff.1 hn)] at h
  | case2 s f hf ih =>
    obtain ⟨hp, hs⟩ := next?_eq_some_iff.1 hf
    rw [touching?_of_next hf] at h
    by_cases hr : f.rest = []
    · rw [if_pos hr] at h
      obtain rfl := Option.some.inj h
      rw [hr, List.append_nil] at hs
      exact ⟨hp.token, f.gap, hs⟩
    · rw [if_neg hr] at h
      obtain ⟨hw, ht⟩ := ih h
      exact ⟨hw, ht.trans ⟨_, hs⟩⟩

theorem touching?_eq_none_iff {s : Text} :
    touching? s = none ↔ ∀ c, s.getLast? = some c → isSpace c = true := by
  induction s using scan.induct with
  | case1 s h =>
    have hs := next?_eq_none_iff.1 h
    simp only [touching?_of_gap hs, true_iff]
    intro c hc
    exact hs c (List.mem_of_getLast? hc)
  | case2 s f h ih =>
    obtain ⟨hp, hs⟩ := next?_eq_some_iff.1 h
    rw [touching?_of_next h]
    by_cases hr : f.rest = []
    · have ht := List.getLast?_eq_some_getLast hp.token.text_ne_nil
      have hn := hp.token.not_isSpace (List.mem_of_getLast? ht)
      have hl : s.getLast? = some (f.token.text.getLast hp.token.text_ne_nil) := by
        rw [← hs, hr, List.append_nil, List.getLast?_append, ht, Option.some_or]
      simp [hr, hl, hn]
    · have hl : s.getLast? = f.rest.getLast? := by
        rw [← hs, List.getLast?_append, List.getLast?_eq_some_getLast hr, Option.some_or]
      rw [if_neg hr, hl]
      exact ih

theorem lexemes_eq_settled (s : Text) : lexemes s = settled s ++ (touching? s).toList := by
  cases h : touching? s with
  | none => simp [settled, h]
  | some t =>
    have hl : (lexemes s).getLast? = some t := by
      rw [touching?_eq] at h
      obtain ⟨f, hf, ht⟩ := Option.bind_eq_some_iff.1 h
      by_cases hr : f.rest = []
      · rw [if_pos hr] at ht
        rw [lexemes, List.getLast?_map, hf, Option.map_some, ht]
      · rw [if_neg hr] at ht
        exact absurd ht (by simp)
    obtain ⟨ts, hts⟩ := List.getLast?_eq_some_iff.1 hl
    simp [settled, h, hts]

theorem settled_of_next {s : Text} {f : Found} (h : next? s = some f) :
    settled s = if f.rest = [] then [] else f.token :: settled f.rest := by
  have hl := lexemes_of_next h
  have ht := touching?_of_next h
  rw [lexemes_eq_settled s, lexemes_eq_settled f.rest, ht] at hl
  by_cases hr : f.rest = []
  · have hn : touching? [] = none := touching?_of_gap (by simp [IsGap])
    have he : settled [] = [] := by
      simp [settled, hn, lexemes_of_gap (s := []) (by simp [IsGap])]
    rw [if_pos hr, hr, hn, he] at hl
    rw [if_pos hr]
    have hl : settled s ++ [f.token] = [] ++ [f.token] := by simpa using hl
    exact List.append_cancel_right hl
  · rw [if_neg hr, ← List.cons_append] at hl
    rw [if_neg hr]
    exact List.append_cancel_right hl

theorem tokenize_append_settled (a b : Text) :
    tokenize (a ++ b) = settled a ++ tokenize (unsettled a ++ b) := by
  induction a using scan.induct with
  | case1 a h =>
    have ha := next?_eq_none_iff.1 h
    simp [settled, unsettled, touching?_of_gap ha, lexemes_of_gap ha, tokenize_gap_append ha]
  | case2 a f h ih =>
    rw [settled_of_next h, unsettled, touching?_of_next h]
    by_cases hr : f.rest = []
    · obtain ⟨hp, hs⟩ := next?_eq_some_iff.1 h
      rw [← hs, hr, List.append_nil, List.append_assoc, tokenize_gap_append hp.gap]
      simp
    · rw [tokenize_of_next (next?_append h hr b), ih, if_neg hr, if_neg hr, unsettled,
        List.cons_append]

theorem tokenize_append_rescan (a b : Text) :
    (touching? a = none ↔ a = [] ∨ ∃ c, a.getLast? = some c ∧ isSpace c = true) ∧
    lexemes a = settled a ++ (touching? a).toList ∧
    tokenize (a ++ b) = settled a ++ tokenize (unsettled a ++ b) := by
  refine ⟨?_, lexemes_eq_settled a, tokenize_append_settled a b⟩
  rw [touching?_eq_none_iff]
  cases h : a.getLast? with
  | none => simpa using List.getLast?_eq_none_iff.1 h
  | some c =>
    have hn : a ≠ [] := List.ne_nil_of_mem (List.mem_of_getLast? h)
    simp [hn]

theorem getLast?_of_touching {a : Text} {t : Token} (h : touching? a = some t) :
    ∃ c ∈ t.text, a.getLast? = some c := by
  obtain ⟨hw, s, hs⟩ := touching?_wellFormed h
  have ht := List.getLast?_eq_some_getLast hw.text_ne_nil
  refine ⟨_, List.mem_of_getLast? ht, ?_⟩
  rw [← hs, List.getLast?_append, ht, Option.some_or]

theorem exists_touching {a : Text} {c : Char} (h : a.getLast? = some c)
    (hs : CharClass.of c ≠ .space) : ∃ t, touching? a = some t ∧ t.kind.charClass = CharClass.of c := by
  cases ht : touching? a with
  | none => exact absurd (CharClass.of_eq_space_iff.2 (touching?_eq_none_iff.1 ht c h)) hs
  | some t =>
    obtain ⟨d, hd, hl⟩ := getLast?_of_touching ht
    obtain rfl := Option.some.inj (h.symm.trans hl)
    exact ⟨t, rfl, ((touching?_wellFormed ht).1.charClass hd).symm⟩

theorem joined_iff {a b : Text} :
    Joined a b ↔ ∃ t, touching? a = some t ∧ ¬ t.kind.StopsAt b := by
  constructor
  · intro h
    rcases h with ⟨c, d, hc, hd, hcw, hdw⟩ | ⟨c, d, hc, hd, hcd, hdd⟩ | ⟨t, ht, hk, hd⟩
    · have hw := CharClass.of_eq_word_iff.2 hcw
      obtain ⟨t, ht, hk⟩ := exists_touching hc (by simp [hw])
      rw [hw] at hk
      exact ⟨t, ht, fun hs => hs d hd ((Kind.takes_of_word hk).2 hdw)⟩
    · have hg := CharClass.of_eq_digit_iff.2 hcd
      obtain ⟨t, ht, hk⟩ := exists_touching hc (by simp [hg])
      rw [hg] at hk
      exact ⟨t, ht, fun hs => hs d hd ((Kind.takes_of_digit hk).2 hdd)⟩
    · refine ⟨t, ht, fun hs => hs '=' hd ?_⟩
      rcases hk with hk | hk <;> simp [hk, Kind.Takes]
  · intro h
    obtain ⟨t, ht, hs⟩ := h
    obtain ⟨d, hd, hk⟩ : ∃ d, b.head? = some d ∧ t.kind.Takes d := by
      simpa [Kind.StopsAt] using hs
    obtain ⟨c, hc, ha⟩ := getLast?_of_touching ht
    have hcc := (touching?_wellFormed ht).1.charClass hc
    cases hkind : t.kind with
    | illegal => exact absurd hk (by simp [hkind, Kind.Takes])
    | int =>
      rw [hkind] at hcc hk
      exact .inr (.inl ⟨c, d, ha, hd, CharClass.of_eq_digit_iff.1 hcc, hk⟩)
    | mark m =>
      rw [hkind] at hk
      obtain ⟨hm, rfl⟩ := hk
      exact .inr (.inr ⟨t, ht, by simpa [hkind] using hm, hd⟩)
    | eof | ident | keyword k =>
      rw [hkind] at hcc hk
      exact .inl ⟨c, d, ha, hd, CharClass.of_eq_word_iff.1 hcc, hk⟩

theorem tokenize_text_append_iff {t : Token} (h : t.WellFormed) (b : Text) :
    tokenize (t.text ++ b) = t :: tokenize b ↔ t.kind.StopsAt b := by
  constructor
  · intro ht
    cases hn : next? (t.text ++ b) with
    | none =>
      rw [tokenize_of_gap (next?_eq_none_iff.1 hn)] at ht
      exact absurd ht (by simp [tokenize])
    | some f =>
      obtain ⟨hp, hs⟩ := next?_eq_some_iff.1 hn
      rw [tokenize_of_next hn] at ht
      obtain ⟨rfl, -⟩ := List.cons.inj ht
      cases hg : f.gap with
      | nil =>
        rw [hg, List.nil_append] at hs
        obtain rfl := List.append_cancel_left hs
        exact hp.stops
      | cons c gap =>
        have hc := hp.gap c (hg ▸ List.mem_cons_self)
        obtain ⟨d, w, hd⟩ := List.exists_cons_of_ne_nil h.text_ne_nil
        obtain rfl : c = d := by simpa [hg, hd] using congrArg List.head? hs
        exact absurd (h.not_isSpace (hd ▸ List.mem_cons_self)) (by simp [hc])
  · intro hs
    have hn : next? (t.text ++ b) = some ⟨[], t, b⟩ :=
      next?_eq_some_iff.2 ⟨⟨by simp [IsGap], h, hs⟩, rfl⟩
    exact tokenize_of_next hn

theorem tokenize_append_iff (a b : Text) :
    (tokenize (a ++ b) = lexemes a ++ tokenize b ↔ ¬ Joined a b) ∧
    ∀ t, touching? a = some t → t.kind = .mark .eq ∨ t.kind = .mark .notEq →
      tokenize (a ++ b) = lexemes a ++ tokenize b := by
  have main : tokenize (a ++ b) = lexemes a ++ tokenize b ↔
      ∀ t, touching? a = some t → t.kind.StopsAt b := by
    rw [tokenize_append_settled, lexemes_eq_settled, List.append_assoc,
      List.append_cancel_left_eq, unsettled]
    cases h : touching? a with
    | none => simp
    | some t => simpa using tokenize_text_append_iff (touching?_wellFormed h).1 b
  refine ⟨?_, fun t ht hk => main.2 fun u hu c _ hc => ?_⟩
  · rw [main, joined_iff]
    simp
  · obtain rfl := Option.some.inj (ht.symm.trans hu)
    rcases hk with hk | hk <;> simp [hk, Kind.Takes] at hc

end Lexeme
