import Lexeme.Proofs.Stepping

/-!
Where a token stands. A token that is handed out ends at the place where the cursor is left, and
between the place where the cursor was and the token there is white space alone, so that the offset
of a token can be told from the cursor. The end token is handed out when white space alone is left
and only then, and after it the cursor stays where it is, whatever is asked of it. The main
statement is `next_spans`.
-/

namespace Lexeme

/-- The token ends at the second place, with white space alone between the first place and it. -/
structure Token.Spans (t : Token) (source : Text) (p q : Nat) : Prop where
  nonempty : t.text ≠ []
  bounds : p + t.text.length ≤ q ∧ q ≤ source.length
  text : source.extract (q - t.text.length) q = t.text
  gap : IsGap (source.extract p (q - t.text.length))

theorem Text.extract_of_drop {s a b : Text} {n : Nat} (h : s.drop n = a ++ b) :
    s.extract n (n + a.length) = a := by
  rw [List.extract_eq_take_drop, h, Nat.add_sub_cancel_left, List.take_left]

namespace Cursor

variable {c : Cursor}

section Step

theorem kind_next_eq_eof_iff : c.next.1.kind = .eof ↔ IsGap c.ahead := by
  rw [← next?_eq_none_iff]
  cases h : next? c.ahead with
  | none => simp [next_of_none h, Token.eof]
  | some f => simp [next_of_some h, (next?_proper h).token.kind_ne_eof]

theorem exists_of_kind_next (h : c.next.1.kind ≠ .eof) :
    ∃ f, next? c.ahead = some f ∧ c.next = (f.token, c.past f) := by
  cases hn : next? c.ahead with
  | none => exact absurd (kind_next_eq_eof_iff.2 (next?_eq_none_iff.1 hn)) h
  | some f => exact ⟨f, rfl, next_of_some hn⟩

theorem next_of_gap (h : IsGap c.ahead) : c.next = (Token.eof, c.atEnd) :=
  next_of_none (next?_eq_none_iff.2 h)

theorem past_position_sub (f : Found) :
    (c.past f).position - f.token.text.length = c.position + f.gap.length := by
  rw [past, Nat.add_sub_cancel]

theorem Valid.spans_next (h : c.Valid) (hk : c.next.1.kind ≠ .eof) :
    c.next.1.Spans c.source c.position c.next.2.position := by
  obtain ⟨f, hn, hf⟩ := exists_of_kind_next hk
  obtain ⟨hp, hs⟩ := next?_eq_some_iff.1 hn
  have hb := h.next.bound
  have hd : c.source.drop c.position = f.gap ++ (f.token.text ++ f.rest) := by
    rw [← h.ahead, ← hs, List.append_assoc]
  have ht : c.source.drop (c.position + f.gap.length) = f.token.text ++ f.rest := by
    rw [← List.drop_drop, hd, List.drop_left]
  rw [hf] at hb ⊢
  refine ⟨hp.token.text_ne_nil, ⟨?_, hb⟩, ?_, ?_⟩
  · simp only [past]
    omega
  · rw [past_position_sub]
    exact Text.extract_of_drop ht
  · rw [past_position_sub, Text.extract_of_drop hd]
    exact hp.gap

theorem Valid.position_atEnd (h : c.Valid) : c.atEnd.position = c.source.length := by
  have hl := congrArg List.length h.ahead
  have hb := h.bound
  rw [List.length_drop] at hl
  simp only [atEnd]
  omega

end Step

section Walk

theorem next_of_nil (h : c.ahead = []) : c.next = (Token.eof, c) := by
  obtain ⟨source, position, ahead⟩ := c
  obtain rfl : ahead = [] := h
  rfl

theorem take_of_nil (h : c.ahead = []) (n : Nat) : (c.take n).2 = c := by
  induction n with
  | zero => rfl
  | succ n ih =>
    simp only [take, next_of_nil h]
    exact ih

theorem ahead_of_eof_mem_take {n : Nat} (h : ∃ t ∈ (c.take n).1, t.kind = .eof) :
    (c.take n).2.ahead = [] := by
  induction n generalizing c with
  | zero => simp [take] at h
  | succ n ih =>
    simp only [take, List.mem_cons, exists_eq_or_imp] at h ⊢
    rcases h with h | h
    · have hn : c.next.2.ahead = [] := by rw [next_of_gap (kind_next_eq_eof_iff.1 h), atEnd]
      rw [take_of_nil hn, hn]
    · exact ih h

/-- The token that comes after others on a walk is the one placed after them, at its offset. -/
theorem placedFrom_take {n : Nat} (h : (c.take n).2.next.1.kind ≠ .eof) :
    (placedFrom c.position (scan c.ahead))[n]? =
      some ((c.take n).2.next.2.position - (c.take n).2.next.1.text.length,
        (c.take n).2.next.1) := by
  induction n generalizing c with
  | zero =>
    simp only [take] at h ⊢
    obtain ⟨f, hn, hf⟩ := exists_of_kind_next h
    rw [hf, past_position_sub, scan_of_some hn]
    rfl
  | succ n ih =>
    simp only [take] at h ⊢
    cases hn : next? c.ahead with
    | none =>
      rw [next_of_none hn, take_of_nil rfl, next_of_nil rfl] at h
      exact absurd rfl h
    | some f =>
      rw [next_of_some hn] at h ⊢
      rw [scan_of_some hn, placedFrom, List.getElem?_cons_succ]
      exact ih h

end Walk

end Cursor

namespace Session

theorem cursor_stays {s : Session} {actions : List Action}
    (h : ∃ t ∈ s.handed actions, t.kind = .eof) (more : List Action) :
    ((s.after actions).after more).cursor = (s.after actions).cursor := by
  have ha : (s.after actions).cursor.ahead = [] := by
    rw [handed_eq_take] at h
    rw [cursor_eq_take]
    exact Cursor.ahead_of_eof_mem_take h
  rw [cursor_eq_take (s.after actions) more, Cursor.take_of_nil ha]

theorem next_spans (source : Text) (actions : List Action) :
    let s := (start source).after actions
    let after := s.act .next
    let p := s.cursor.position
    let q := after.2.cursor.position
    ∃ t, after.1 = .token t ∧
      (t.kind ≠ .eof → t.Spans source p q ∧
        (placed source)[((start source).handed actions).length]? = some (q - t.text.length, t)) ∧
      (t.kind = .eof → t = Token.eof ∧ q = source.length) ∧
      (t.kind = .eof ↔ IsGap (source.drop p)) ∧
      s.cursor.head.next = (t, after.2.cursor.head) ∧
      ((∃ u ∈ (start source).handed actions, u.kind = .eof) →
        ∀ more, (s.after more).cursor = s.cursor) := by
  intro s after p q
  have hv : s.cursor.Valid := valid_after source actions
  have hs : s.cursor.source = source := source_after source actions
  have hc : s.cursor = ((Cursor.start source).take _).2 := cursor_after source actions
  have ha : s.cursor.ahead = source.drop p := by rw [hv.ahead, hs]
  refine ⟨s.cursor.next.1, rfl, ?_, ?_, ?_, hv.next_head, cursor_stays⟩
  · intro hk
    have hp := Cursor.placedFrom_take (hc ▸ hk)
    rw [← hc] at hp
    exact ⟨hs ▸ hv.spans_next hk, hp⟩
  · intro hk
    have hn := Cursor.next_of_gap (Cursor.kind_next_eq_eof_iff.1 hk)
    have hq : q = s.cursor.atEnd.position := congrArg (fun r => r.2.position) hn
    rw [hq, hv.position_atEnd, hs, hn]
    exact ⟨rfl, rfl⟩
  · rw [← ha]
    exact Cursor.kind_next_eq_eof_iff

/-- A stream has handed out the first token; the mark that comes next has a blank on either side. -/
theorem next_spans_mark_and_end :
    let source := "a  == ".toList
    let first := (start source).after [.openStream, .pull 0]
    let last := first.after [.next, .pull 0]
    first.act .next = (.token (Token.ofMark .eq), first.after [.next]) ∧
    (Token.ofMark .eq).Spans source 1 5 ∧
    last.cursor.position = source.length ∧
    ∀ more, (last.after more).cursor = last.cursor := by
  intro source first last
  obtain ⟨t, ht, hm, -⟩ := next_spans source [.openStream, .pull 0]
  obtain rfl : Token.ofMark .eq = t := Reply.token.inj ht
  obtain ⟨u, hu, -, he, -⟩ := next_spans source [.openStream, .pull 0, .next]
  obtain rfl : Token.eof = u := Reply.token.inj hu
  obtain ⟨-, -, -, -, -, -, hl⟩ := next_spans source [.openStream, .pull 0, .next, .pull 0]
  have hd : ∃ t ∈ (start source).handed [.openStream, .pull 0, .next, .pull 0], t.kind = .eof :=
    ⟨Token.eof, by decide, rfl⟩
  exact ⟨rfl, (hm (by decide)).1, (he rfl).2, hl hd⟩

end Session
end Lexeme
