import Lexeme.Proofs.Sharing
import Lexeme.Token.Head

/-!
Every state that a session can reach has its cursor in place: inside the source, on the character
that its position says, and never moved back. The place is also the one that a reading head comes to
when it scans the same tokens character by character. The head is followed from place to place: the
head `above` a place stays above some place under every move (`move_above`, `skip_above`,
`run_above`), so that the bound on the place is all there is to show about a whole token, and the
cursor has it. The main statement is `cursor_keeps_place`.
-/

namespace Lexeme

namespace Head

/-- The head above a place of a source; above the end and beyond it there is no character. -/
def above (source : Text) (n : Nat) : Head := ⟨source, n, n + 1, source[n]?⟩

theorem move_above (source : Text) (n : Nat) : (above source n).move = above source (n + 1) := rfl

theorem advance_above (source : Text) (n k : Nat) :
    (above source n).advance k = above source (n + k) := by
  induction k generalizing n with
  | zero => rfl
  | succ k ih =>
    rw [advance, move_above, ih, Nat.add_right_comm, Nat.add_assoc]

theorem skip_of_any {p : Char → Bool} {h : Head} (hp : h.current?.any p = true) :
    h.skip p = h.move.skip p := by
  rw [skip, dif_pos hp]

theorem skip_of_not_any {p : Char → Bool} {h : Head} (hp : ¬ h.current?.any p = true) :
    h.skip p = h := by
  rw [skip, dif_neg hp]

theorem getElem?_of_drop {source rest : Text} {n : Nat} {c : Char}
    (h : source.drop n = c :: rest) : source[n]? = some c := by
  rw [← List.head?_drop, h, List.head?_cons]

theorem drop_succ_of_drop {source rest : Text} {n : Nat} {c : Char}
    (h : source.drop n = c :: rest) : source.drop (n + 1) = rest := by
  rw [← List.tail_drop, h, List.tail_cons]

theorem skip_above {source ahead : Text} {n : Nat} (h : source.drop n = ahead) (p : Char → Bool) :
    (above source n).skip p = above source (n + (ahead.takeWhile p).length) := by
  induction ahead generalizing n with
  | nil =>
    have hc : source[n]? = none := List.getElem?_eq_none (List.drop_eq_nil_iff.1 h)
    apply skip_of_not_any
    simp [above, hc]
  | cons c rest ih =>
    have hc := getElem?_of_drop h
    by_cases hp : p c = true
    · have hs : (above source n).skip p = (above source (n + 1)).skip p := by
        apply skip_of_any
        simp [above, hc, hp]
      rw [hs, ih (drop_succ_of_drop h), List.takeWhile_cons_of_pos hp, List.length_cons,
        Nat.add_right_comm, Nat.add_assoc]
    · rw [List.takeWhile_cons_of_neg hp]
      apply skip_of_not_any
      simp [above, hc, hp]

theorem run_above {source ahead : Text} {n : Nat} (h : source.drop n = ahead) (p : Char → Bool) :
    (above source n).run p =
      (ahead.takeWhile p, above source (n + (ahead.takeWhile p).length)) := by
  have ht := List.prefix_iff_eq_take.1 (List.takeWhile_prefix p (l := ahead))
  simp only [run, skip_above h p]
  simp only [above, List.drop_take, Nat.add_sub_cancel_left, h, ← ht]

theorem readMark_eq (c : Char) (rest : Text) :
    (Token.readMark c rest).1 = Token.atMark c rest.head? := by
  cases hp : rest.head?.bind (Mark.pair? c) with
  | some m => simp [Token.readMark, Token.atMark, hp]
  | none =>
    cases hm : Mark.single? c with
    | some m => simp [Token.readMark, Token.atMark, hp, hm]
    | none => simp [Token.readMark, Token.atMark, hp, hm]

theorem read_above {source rest : Text} {n : Nat} {c : Char} (h : source.drop n = c :: rest) :
    (above source n).read c =
      ((Token.read c rest).1, above source (n + (Token.read c rest).1.text.length)) := by
  by_cases hw : isWordChar c = true
  · simp [read, Token.read, hw, run_above h, List.takeWhile_cons_of_pos hw, Token.ofWord]
  by_cases hd : c.isDigit = true
  · simp [read, Token.read, hw, hd, run_above h, List.takeWhile_cons_of_pos hd]
  · have hp : (above source n).peek? = rest.head? := by
      rw [← drop_succ_of_drop h, List.head?_drop]
      rfl
    simp [read, Token.read, hw, hd, hp, readMark_eq, advance_above]

end Head

namespace Cursor

theorem Valid.head_eq_above {c : Cursor} (h : c.Valid) :
    c.head = Head.above c.source c.position := by
  rw [head, current?, h.ahead, List.head?_drop]
  rfl

theorem head_start (source : Text) : (start source).head = Head.start source := by
  rw [(start_valid source).head_eq_above]
  rfl

theorem next?_some_cases {s : Text} {f : Found} (h : next? s = some f) :
    ∃ c rest, f.gap = s.takeWhile isSpace ∧ s.dropWhile isSpace = c :: rest ∧
      f.token = (Token.read c rest).1 := by
  rw [next?] at h
  split at h
  · exact absurd h (by simp)
  · next c rest hs =>
    obtain rfl := Option.some.inj h
    exact ⟨c, rest, rfl, hs, rfl⟩

theorem Valid.skip_head_of_none {c : Cursor} (h : c.Valid) (hn : next? c.ahead = none) :
    c.head.skip isSpace = Head.above c.source c.atEnd.position ∧
      (Head.above c.source c.atEnd.position).current? = none := by
  have hg : c.ahead.takeWhile isSpace = c.ahead :=
    List.takeWhile_eq_self_iff.2 (next?_eq_none_iff.1 hn)
  have hl := congrArg List.length h.ahead
  rw [List.length_drop] at hl
  have hc : c.source[c.position + c.ahead.length]? = none := List.getElem?_eq_none (by omega)
  rw [h.head_eq_above, Head.skip_above h.ahead.symm, hg]
  exact ⟨rfl, hc⟩

theorem Valid.skip_head_of_some {c : Cursor} (h : c.Valid) {f : Found}
    (hn : next? c.ahead = some f) :
    ∃ d rest, c.head.skip isSpace = Head.above c.source (c.position + f.gap.length) ∧
      (Head.above c.source (c.position + f.gap.length)).current? = some d ∧
      c.source.drop (c.position + f.gap.length) = d :: rest ∧ f.token = (Token.read d rest).1 := by
  obtain ⟨d, rest, hg, hd, ht⟩ := next?_some_cases hn
  have ha : c.source.drop c.position = f.gap ++ d :: rest := by
    rw [← h.ahead, hg, ← hd, List.takeWhile_append_dropWhile]
  have hp : c.source.drop (c.position + f.gap.length) = d :: rest := by
    rw [← List.drop_drop, ha, List.drop_left]
  refine ⟨d, rest, ?_, Head.getElem?_of_drop hp, hp, ht⟩
  rw [h.head_eq_above, Head.skip_above h.ahead.symm, ← hg]

theorem Valid.next_head {c : Cursor} (h : c.Valid) : c.head.next = (c.next.1, c.next.2.head) := by
  rw [h.next.head_eq_above, source_next, Head.next]
  cases hn : next? c.ahead with
  | none =>
    obtain ⟨hs, hc⟩ := h.skip_head_of_none hn
    simp only [hs, hc, next_of_none hn]
  | some f =>
    obtain ⟨d, rest, hs, hc, hd, ht⟩ := h.skip_head_of_some hn
    simp only [hs, hc, Head.read_above hd, next_of_some hn, past, ht]

theorem Valid.take_head {c : Cursor} (h : c.Valid) (n : Nat) :
    c.head.take n = ((c.take n).1, (c.take n).2.head) := by
  induction n generalizing c with
  | zero => rfl
  | succ n ih =>
    have hn := ih h.next
    simp only [Head.take, Cursor.take, h.next_head, hn]

theorem position_next_le (c : Cursor) : c.position ≤ c.next.2.position := by
  cases h : next? c.ahead with
  | none =>
    rw [next_of_none h]
    exact Nat.le_add_right _ _
  | some f =>
    rw [next_of_some h]
    simp only [past]
    omega

theorem position_take_le (n : Nat) (c : Cursor) : c.position ≤ (c.take n).2.position := by
  induction n generalizing c with
  | zero => exact Nat.le_refl _
  | succ n ih => exact (position_next_le c).trans (ih c.next.2)

theorem Valid.current?_eq {c : Cursor} (h : c.Valid) : c.current? = c.source[c.position]? := by
  rw [current?, h.ahead, List.head?_drop]

theorem Valid.peek?_eq {c : Cursor} (h : c.Valid) : c.peek? = c.source[c.position + 1]? := by
  rw [peek?, h.ahead, List.tail_drop, List.head?_drop]

theorem Valid.current?_eq_none_iff {c : Cursor} (h : c.Valid) :
    c.current? = none ↔ c.position = c.source.length := by
  have hb := h.bound
  rw [h.current?_eq, List.getElem?_eq_none_iff]
  omega

end Cursor

namespace Session

theorem act_keeps (s : Session) (a : Action) :
    (s.act a).2.cursor.source = s.cursor.source ∧
      s.cursor.position ≤ (s.act a).2.cursor.position := by
  obtain ⟨n, hn⟩ := act_eq_take s a
  have hs := Cursor.source_take n s.cursor
  have hp := Cursor.position_take_le n s.cursor
  rw [hn] at hs hp
  exact ⟨hs, hp⟩

theorem head_after (source : Text) (actions : List Action) :
    ((start source).after actions).cursor.head =
      ((Head.start source).take ((start source).handed actions).length).2 := by
  have ht := (Cursor.start_valid source).take_head ((start source).handed actions).length
  rw [cursor_after, ← Cursor.head_start, ht]

theorem cursor_keeps_place (source : Text) (actions : List Action) :
    let s := (start source).after actions
    let c := s.cursor
    (c.source = source ∧ c.readPosition = c.position + 1 ∧ c.position ≤ source.length) ∧
    (c.current? = source[c.position]? ∧ (c.current? = none ↔ c.position = source.length)) ∧
    s.act .peek = (.char source[c.position + 1]?, s) ∧
    (∀ a, (s.act a).2.cursor.source = source ∧ c.position ≤ (s.act a).2.cursor.position) ∧
    c.head = ((Head.start source).take ((start source).handed actions).length).2 := by
  intro s c
  have hv : c.Valid := valid_after source actions
  have hs : c.source = source := source_after source actions
  have hb := hv.bound
  have hc := hv.current?_eq
  have he := hv.current?_eq_none_iff
  have hp := hv.peek?_eq
  rw [hs] at hb hc he hp
  refine ⟨⟨hs, rfl, hb⟩, ⟨hc, he⟩, ?_, ?_, head_after source actions⟩
  · rw [← hp]
    rfl
  · intro a
    obtain ⟨ha, hl⟩ := act_keeps s a
    exact ⟨ha.trans hs, hl⟩

end Session
end Lexeme
