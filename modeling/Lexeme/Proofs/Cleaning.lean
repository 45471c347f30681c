import Lexeme.Proofs.Reading
import Lexeme.Text.ControlSequence

/-!
Taking control sequences out of a text, said from left to right. Where a sequence begins it is
dropped, and elsewhere a character is kept, by `withoutControlSequences_cons` and
`withoutControlSequences_escape`; that the text is worked on piece by piece does not show, and
`cleaning` is the induction to it. A text that stays as it is is one in which no control sequence
occurs, by `withoutControlSequences_eq_iff`. What follows a text stays apart from it if it completes
no sequence that the text begins, by `withoutControlSequences_append_tail`.
-/

namespace Lexeme.Text

namespace ControlSequence

/-- A control sequence stands somewhere in a text. -/
def Occurs (s : Text) : Prop :=
  ∃ before parameters intermediates last after,
    s = before ++ escape :: '[' :: (parameters ++ (intermediates ++ last :: after)) ∧
    (∀ c ∈ parameters, isParameter c = true) ∧
    (∀ c ∈ intermediates, isIntermediate c = true) ∧ isFinal last = true

section Classes

theorem isParameter_iff {c : Char} : isParameter c = true ↔ 0x30 ≤ c.toNat ∧ c.toNat ≤ 0x3f := by
  rw [isParameter, Bool.and_eq_true, decide_eq_true_eq, decide_eq_true_eq]
  exact Iff.rfl

theorem isIntermediate_iff {c : Char} :
    isIntermediate c = true ↔ 0x20 ≤ c.toNat ∧ c.toNat ≤ 0x2f := by
  rw [isIntermediate, Bool.and_eq_true, decide_eq_true_eq, decide_eq_true_eq]
  exact Iff.rfl

theorem isFinal_iff {c : Char} : isFinal c = true ↔ 0x40 ≤ c.toNat ∧ c.toNat ≤ 0x7e := by
  rw [isFinal, Bool.and_eq_true, decide_eq_true_eq, decide_eq_true_eq]
  exact Iff.rfl

theorem not_isParameter_of_isIntermediate {c : Char} (h : isIntermediate c = true) :
    isParameter c = false := by
  rw [isIntermediate_iff] at h
  rw [← Bool.not_eq_true, isParameter_iff]
  omega

theorem not_isParameter_of_isFinal {c : Char} (h : isFinal c = true) : isParameter c = false := by
  rw [isFinal_iff] at h
  rw [← Bool.not_eq_true, isParameter_iff]
  omega

theorem not_isIntermediate_of_isFinal {c : Char} (h : isFinal c = true) :
    isIntermediate c = false := by
  rw [isFinal_iff] at h
  rw [← Bool.not_eq_true, isIntermediate_iff]
  omega

end Classes

/-- No part of a control sequence goes on into a text, and none begins with its first character. -/
def Stops (tail : Text) : Prop :=
  ∀ c, tail.head? = some c →
    c ≠ '[' ∧ isParameter c = false ∧ isIntermediate c = false ∧ isFinal c = false

theorem stops_nil : Stops [] := by
  intro c hc
  exact absurd hc (by simp)

theorem stops_escape (s : Text) : Stops (escape :: s) := by
  intro c hc
  obtain rfl : escape = c := by simpa using hc
  decide

theorem stops_lineFeed (s : Text) : Stops ('\n' :: s) := by
  intro c hc
  obtain rfl : '\n' = c := by simpa using hc
  decide

theorem dropWhile_append_tail {p : Char → Bool} {tail : Text}
    (h : ∀ c, tail.head? = some c → p c = false) (body : Text) :
    (body ++ tail).dropWhile p = body.dropWhile p ++ tail := by
  induction body with
  | nil =>
    cases tail with
    | nil => rfl
    | cons c tail => exact List.dropWhile_cons_of_neg (by simp [h c rfl])
  | cons c body ih =>
    by_cases hc : p c = true
    · rw [List.cons_append, List.dropWhile_cons_of_pos hc, List.dropWhile_cons_of_pos hc, ih]
    · rw [List.cons_append, List.dropWhile_cons_of_neg hc, List.dropWhile_cons_of_neg hc,
        List.cons_append]

theorem rest?_append {tail : Text} (h : Stops tail) (piece : Text) :
    rest? (piece ++ tail) = (rest? piece).map (· ++ tail) := by
  cases piece with
  | nil =>
    cases tail with
    | nil => rfl
    | cons c tail =>
      have hc := (h c rfl).1
      simp [rest?, hc]
  | cons c body =>
    by_cases hc : c = '['
    · subst hc
      have hp := dropWhile_append_tail (fun d hd => (h d hd).2.1) body
      have hi := dropWhile_append_tail (fun d hd => (h d hd).2.2.1) (body.dropWhile isParameter)
      simp only [List.cons_append, rest?, hp, hi]
      cases (body.dropWhile isParameter).dropWhile isIntermediate with
      | nil =>
        cases tail with
        | nil => rfl
        | cons d tail => simp [(h d rfl).2.2.2]
      | cons d rest =>
        by_cases hd : isFinal d = true
        · simp [hd]
        · simp [hd]
    · simp [rest?, hc]

theorem rest?_of_parts {parameters intermediates rest : Text} {last : Char}
    (hp : ∀ c ∈ parameters, isParameter c = true)
    (hi : ∀ c ∈ intermediates, isIntermediate c = true) (hl : isFinal last = true) :
    rest? ('[' :: (parameters ++ (intermediates ++ last :: rest))) = some rest := by
  have hdi : (intermediates ++ last :: rest).dropWhile isIntermediate = last :: rest := by
    apply dropWhile_append hi
    intro c hc
    obtain rfl : last = c := by simpa using hc
    exact not_isIntermediate_of_isFinal hl
  have hdp : (parameters ++ (intermediates ++ last :: rest)).dropWhile isParameter =
      intermediates ++ last :: rest := by
    apply dropWhile_append hp
    intro c hc
    cases intermediates with
    | nil =>
      obtain rfl : last = c := by simpa using hc
      exact not_isParameter_of_isFinal hl
    | cons d intermediates =>
      obtain rfl : d = c := by simpa using hc
      exact not_isParameter_of_isIntermediate (hi d List.mem_cons_self)
  simp only [rest?, hdp, hdi, hl, if_true]

theorem rest?_eq_some_iff {s rest : Text} :
    rest? s = some rest ↔ ∃ parameters intermediates last,
      s = '[' :: (parameters ++ (intermediates ++ last :: rest)) ∧
      (∀ c ∈ parameters, isParameter c = true) ∧
      (∀ c ∈ intermediates, isIntermediate c = true) ∧ isFinal last = true := by
  constructor
  · intro h
    unfold rest? at h
    split at h
    · next body =>
      split at h
      · next last after hd =>
        split at h
        · next hl =>
          obtain rfl := Option.some.inj h
          refine ⟨body.takeWhile isParameter, (body.dropWhile isParameter).takeWhile isIntermediate,
            last, ?_, fun c => List.mem_takeWhile_imp, fun c => List.mem_takeWhile_imp, hl⟩
          rw [← hd, List.takeWhile_append_dropWhile, List.takeWhile_append_dropWhile]
        · exact absurd h (by simp)
      · exact absurd h (by simp)
    · exact absurd h (by simp)
  · intro h
    obtain ⟨parameters, intermediates, last, rfl, hp, hi, hl⟩ := h
    exact rest?_of_parts hp hi hl

theorem rest?_append_of_some {s rest : Text} (h : rest? s = some rest) (tail : Text) :
    rest? (s ++ tail) = some (rest ++ tail) := by
  obtain ⟨parameters, intermediates, last, rfl, hp, hi, hl⟩ := rest?_eq_some_iff.1 h
  simpa using rest?_of_parts hp hi hl

/-- A character that ends no control sequence completes none either. -/
theorem rest?_concat {c : Char} (h : isFinal c = false) (s : Text) :
    rest? (s ++ [c]) = (rest? s).map (· ++ [c]) := by
  cases hs : rest? s with
  | some rest => exact rest?_append_of_some hs [c]
  | none =>
    rw [Option.map_none, Option.eq_none_iff_forall_ne_some]
    intro rest hr
    obtain ⟨parameters, intermediates, last, he, hp, hi, hl⟩ := rest?_eq_some_iff.1 hr
    rcases List.eq_nil_or_concat rest with rfl | ⟨init, d, rfl⟩
    · have hc : s ++ [c] = '[' :: (parameters ++ intermediates) ++ [last] := by simpa using he
      obtain ⟨-, hc⟩ := List.append_inj' hc rfl
      rw [List.singleton_inj.1 hc, hl] at h
      exact absurd h (by simp)
    · have hc : s ++ [c] = '[' :: (parameters ++ (intermediates ++ last :: init)) ++ [d] := by
        simpa using he
      obtain ⟨rfl, -⟩ := List.append_inj' hc rfl
      rw [rest?_of_parts hp hi hl] at hs
      exact absurd hs (by simp)

theorem length_lt_of_rest? {s rest : Text} (h : rest? s = some rest) : rest.length < s.length := by
  obtain ⟨parameters, intermediates, last, rfl, -⟩ := rest?_eq_some_iff.1 h
  simp only [List.length_cons, List.length_append]
  omega

theorem occurs_cons_iff {c : Char} {s : Text} :
    Occurs (c :: s) ↔ (c = escape ∧ (rest? s).isSome = true) ∨ Occurs s := by
  constructor
  · intro h
    obtain ⟨before, parameters, intermediates, last, after, he, hp, hi, hl⟩ := h
    cases before with
    | nil =>
      obtain ⟨rfl, rfl⟩ := List.cons.inj he
      exact .inl ⟨rfl, by rw [rest?_of_parts hp hi hl]; rfl⟩
    | cons d before =>
      obtain ⟨rfl, rfl⟩ := List.cons.inj he
      exact .inr ⟨before, parameters, intermediates, last, after, rfl, hp, hi, hl⟩
  · intro h
    rcases h with ⟨rfl, hs⟩ | ⟨before, parameters, intermediates, last, after, rfl, hp, hi, hl⟩
    · obtain ⟨rest, hr⟩ := Option.isSome_iff_exists.1 hs
      obtain ⟨parameters, intermediates, last, rfl, hp, hi, hl⟩ := rest?_eq_some_iff.1 hr
      exact ⟨[], parameters, intermediates, last, rest, rfl, hp, hi, hl⟩
    · exact ⟨c :: before, parameters, intermediates, last, after, rfl, hp, hi, hl⟩

/-- Induction from left to right, as a text is cleaned: a character is kept, or a whole control
sequence is left out. -/
theorem cleaning {P : Text → Prop} (nil : P [])
    (plain : ∀ c s, c ≠ escape → P s → P (c :: s))
    (kept : ∀ s, rest? s = none → P s → P (escape :: s))
    (dropped : ∀ s rest, rest? s = some rest → P rest → P (escape :: s)) (s : Text) : P s := by
  induction hn : s.length using Nat.strongRecOn generalizing s with
  | ind n ih =>
    subst hn
    cases s with
    | nil => exact nil
    | cons c s =>
      have hs := ih s.length (Nat.lt_succ_self _) s rfl
      by_cases hc : c = escape
      · subst hc
        cases hr : rest? s with
        | none => exact kept s hr hs
        | some rest =>
          exact dropped s rest hr
            (ih rest.length (Nat.lt_succ_of_lt (length_lt_of_rest? hr)) rest rfl)
      · exact plain c s hc hs

end ControlSequence

open ControlSequence

theorem withoutControlSequences_nil : withoutControlSequences [] = [] := by
  rw [withoutControlSequences, List.splitOn_nil]
  rfl

theorem withoutControlSequences_cons {c : Char} (h : c ≠ escape) (s : Text) :
    withoutControlSequences (c :: s) = c :: withoutControlSequences s := by
  have hb : (c == escape) = false := by simp [h]
  obtain ⟨plain, pieces, hs⟩ := List.exists_cons_of_ne_nil (List.splitOn_ne_nil escape s)
  rw [withoutControlSequences, withoutControlSequences, List.splitOn_cons_eq_if_modifyHead, hb, hs]
  rfl

theorem withoutControlSequences_append {w : Text} (h : escape ∉ w) (s : Text) :
    withoutControlSequences (w ++ s) = w ++ withoutControlSequences s := by
  induction w with
  | nil => rfl
  | cons c w ih =>
    obtain ⟨hc, hw⟩ : escape ≠ c ∧ escape ∉ w := by simpa using h
    rw [List.cons_append, withoutControlSequences_cons (Ne.symm hc), ih hw, List.cons_append]

theorem withoutControlSequences_piece {piece tail : Text} (hp : escape ∉ piece)
    (ht : tail = [] ∨ ∃ s, tail = escape :: s) :
    withoutControlSequences (escape :: (piece ++ tail)) =
      cleaned piece ++ withoutControlSequences tail := by
  have hs : ∀ s, withoutControlSequences (escape :: s) = (s.splitOn escape).flatMap cleaned := by
    intro s
    rw [withoutControlSequences, List.splitOn_cons_eq_if_modifyHead, beq_self_eq_true, if_pos rfl]
    rfl
  rw [hs]
  rcases ht with rfl | ⟨s, rfl⟩
  · rw [List.append_nil, List.splitOn_eq_singleton hp, withoutControlSequences_nil]
    rfl
  · rw [List.splitOn_append_cons_self_of_not_mem hp, hs, List.flatMap_cons]

theorem exists_piece (s : Text) :
    ∃ piece tail, s = piece ++ tail ∧ escape ∉ piece ∧ (tail = [] ∨ ∃ t, tail = escape :: t) := by
  induction s with
  | nil => exact ⟨[], [], rfl, by simp, .inl rfl⟩
  | cons c s ih =>
    by_cases hc : c = escape
    · exact ⟨[], c :: s, rfl, by simp, .inr ⟨s, by rw [hc]⟩⟩
    · obtain ⟨piece, tail, rfl, hp, ht⟩ := ih
      exact ⟨c :: piece, tail, rfl, by simp [hp, Ne.symm hc], ht⟩

theorem withoutControlSequences_escape (s : Text) :
    withoutControlSequences (escape :: s) =
      match rest? s with
      | some rest => withoutControlSequences rest
      | none => escape :: withoutControlSequences s := by
  obtain ⟨piece, tail, rfl, hp, ht⟩ := exists_piece s
  have hs : Stops tail := by
    rcases ht with rfl | ⟨t, rfl⟩
    · exact stops_nil
    · exact stops_escape t
  rw [withoutControlSequences_piece hp ht, cleaned, rest?_append hs]
  cases hr : rest? piece with
  | none =>
    have ha := withoutControlSequences_append hp tail
    simp only [Option.map_none, Option.getD_none, List.cons_append, ha]
  | some rest =>
    have hn : escape ∉ rest := by
      obtain ⟨parameters, intermediates, last, rfl, -⟩ := rest?_eq_some_iff.1 hr
      intro hm
      apply hp
      simp [hm]
    have ha := withoutControlSequences_append hn tail
    simp only [Option.map_some, Option.getD_some, ha]

theorem withoutControlSequences_kept {s : Text} (h : rest? s = none) :
    withoutControlSequences (escape :: s) = escape :: withoutControlSequences s := by
  rw [withoutControlSequences_escape, h]

theorem withoutControlSequences_dropped {s rest : Text} (h : rest? s = some rest) :
    withoutControlSequences (escape :: s) = withoutControlSequences rest := by
  rw [withoutControlSequences_escape, h]

theorem printed_of_not_escape {s : Text} (h : escape ∉ s) : printed s = s ++ ['\n'] := by
  have hw := withoutControlSequences_append h []
  rw [List.append_nil, withoutControlSequences_nil, List.append_nil] at hw
  rw [printed, hw]

theorem length_withoutControlSequences_le (s : Text) :
    (withoutControlSequences s).length ≤ s.length := by
  induction s using cleaning with
  | nil => rw [withoutControlSequences_nil]
  | plain c s hc ih =>
    rw [withoutControlSequences_cons hc]
    exact Nat.succ_le_succ ih
  | kept s hr ih =>
    rw [withoutControlSequences_kept hr]
    exact Nat.succ_le_succ ih
  | dropped s rest hr ih =>
    rw [withoutControlSequences_dropped hr]
    exact ih.trans (Nat.le_succ_of_le (length_lt_of_rest? hr).le)

theorem withoutControlSequences_eq_iff {s : Text} :
    withoutControlSequences s = s ↔ ¬ Occurs s := by
  induction s with
  | nil =>
    have ho : ¬ Occurs [] := by
      intro h
      obtain ⟨before, parameters, intermediates, last, after, he, -⟩ := h
      simp at he
    simp [withoutControlSequences_nil, ho]
  | cons c s ih =>
    rw [occurs_cons_iff]
    by_cases hc : c = escape
    · subst hc
      rw [withoutControlSequences_escape]
      cases hr : rest? s with
      | none => simp [ih]
      | some rest =>
        have hl := length_lt_of_rest? hr
        have hw := length_withoutControlSequences_le rest
        have hn : withoutControlSequences rest ≠ escape :: s := by
          intro he
          rw [he, List.length_cons] at hw
          omega
        simp [hn]
    · rw [withoutControlSequences_cons hc]
      simp [hc, ih]

/-- A text is cleaned apart from a tail that completes no control sequence begun in it. -/
theorem withoutControlSequences_append_tail {tail : Text}
    (h : ∀ s, rest? (s ++ tail) = (rest? s).map (· ++ tail)) (s : Text) :
    withoutControlSequences (s ++ tail) =
      withoutControlSequences s ++ withoutControlSequences tail := by
  induction s using cleaning with
  | nil => rw [withoutControlSequences_nil, List.nil_append, List.nil_append]
  | plain c s hc ih =>
    rw [List.cons_append, withoutControlSequences_cons hc, ih, withoutControlSequences_cons hc,
      List.cons_append]
  | kept s hr ih =>
    have ht : rest? (s ++ tail) = none := by rw [h, hr, Option.map_none]
    rw [List.cons_append, withoutControlSequences_kept ht, ih, withoutControlSequences_kept hr,
      List.cons_append]
  | dropped s rest hr ih =>
    have ht : rest? (s ++ tail) = some (rest ++ tail) := by rw [h, hr, Option.map_some]
    rw [List.cons_append, withoutControlSequences_dropped ht, ih, withoutControlSequences_dropped hr]

theorem mem_withoutControlSequences_iff {c : Char} (hc : c ≠ escape) (h : Stops [c]) {s : Text} :
    c ∈ withoutControlSequences s ↔ c ∈ s := by
  obtain ⟨hb, hp, hi, hl⟩ := h c rfl
  induction s using cleaning with
  | nil => rw [withoutControlSequences_nil]
  | plain d s hd ih => rw [withoutControlSequences_cons hd, List.mem_cons, List.mem_cons, ih]
  | kept s hr ih => rw [withoutControlSequences_kept hr, List.mem_cons, List.mem_cons, ih]
  | dropped s rest hr ih =>
    obtain ⟨parameters, intermediates, last, rfl, hps, his, hlast⟩ := rest?_eq_some_iff.1 hr
    rw [withoutControlSequences_dropped hr, ih]
    have hnp : c ∉ parameters := fun hm => by simp [hps c hm] at hp
    have hni : c ∉ intermediates := fun hm => by simp [his c hm] at hi
    have hnl : c ≠ last := fun hm => by simp [hm, hlast] at hl
    simp [hc, hb, hnp, hni, hnl]

end Lexeme.Text
