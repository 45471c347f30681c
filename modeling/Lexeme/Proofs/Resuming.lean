import Lexeme.Proofs.Stepping

/-!
A scan that goes on from a place is a scan of what is left. A head does the same whatever stands in
front of its text: each of its moves gives `behind` a text what it gives without, and so does, by
`next_behind`, the reading of a token and, by induction, of any number of them. So nothing of what
was read before is carried along but the place, and a cursor that stands in a source produces the
tokens that a new one produces from the rest of it, at places that are further on by as much as lies
before the rest. The main statement is `resumes_afresh`.
-/

namespace Lexeme

namespace Head

/-- The head at the same place of its text, with another text in front. -/
def behind (h : Head) (before : Text) : Head where
  source := before ++ h.source
  position := before.length + h.position
  readPosition := before.length + h.readPosition
  current? := h.current?

variable {before : Text} {h : Head}

theorem getElem?_before (before s : Text) (n : Nat) :
    (before ++ s)[before.length + n]? = s[n]? := by
  rw [List.getElem?_append_right (Nat.le_add_right _ _), Nat.add_sub_cancel_left]

theorem move_behind : (h.behind before).move = h.move.behind before := by
  simp only [move, behind, getElem?_before, Nat.add_assoc]

theorem peek?_behind : (h.behind before).peek? = h.peek? := by
  simp only [peek?, behind, getElem?_before]

theorem advance_behind (n : Nat) : (h.behind before).advance n = (h.advance n).behind before := by
  induction n generalizing h with
  | zero => rfl
  | succ n ih => rw [advance, move_behind, ih, advance]

theorem skip_behind (p : Char → Bool) : (h.behind before).skip p = (h.skip p).behind before := by
  induction h using skip.induct p with
  | case1 h hp ih => rw [skip_of_any (h := h.behind before) hp, move_behind, ih, skip_of_any hp]
  | case2 h hp => rw [skip_of_not_any (h := h.behind before) hp, skip_of_not_any hp]

theorem run_behind (p : Char → Bool) :
    (h.behind before).run p = ((h.run p).1, (h.run p).2.behind before) := by
  simp only [run, skip_behind]
  simp only [behind, List.take_length_add_append, List.drop_length_add_append]

theorem read_behind (c : Char) :
    (h.behind before).read c = ((h.read c).1, (h.read c).2.behind before) := by
  simp only [read, run_behind, peek?_behind, advance_behind]
  split
  · rfl
  split
  · rfl
  · rfl

theorem next_behind : (h.behind before).next = (h.next.1, h.next.2.behind before) := by
  have hc : ((h.skip isSpace).behind before).current? = (h.skip isSpace).current? := rfl
  simp only [next, skip_behind, hc]
  cases (h.skip isSpace).current? with
  | none => rfl
  | some c => exact read_behind c

theorem take_behind (n : Nat) :
    (h.behind before).take n = ((h.take n).1, (h.take n).2.behind before) := by
  induction n generalizing h with
  | zero => rfl
  | succ n ih => simp only [take, next_behind, ih]

theorem above_add (before s : Text) (n : Nat) :
    above (before ++ s) (before.length + n) = (above s n).behind before := by
  simp only [above, behind, getElem?_before, Nat.add_assoc]

end Head

namespace Cursor

variable {c : Cursor}

theorem take_take (c : Cursor) (k n : Nat) : (c.take n).1.take k = (c.take (min k n)).1 := by
  rcases Nat.le_total k n with h | h
  · obtain ⟨m, rfl⟩ := Nat.exists_eq_add_of_le h
    rw [take_add, List.take_left' (length_take k c), Nat.min_eq_left h]
  · rw [List.take_of_length_le (by rwa [length_take]), Nat.min_eq_right h]

/-- As far as the first end token, the tokens of a walk are those of the text ahead. -/
theorem take_tokens (c : Cursor) (n : Nat) :
    (c.take n).1.take (tokenize c.ahead).length = (tokenize c.ahead).take n := by
  have hl : (tokenize c.ahead).length = (lexemes c.ahead).length + 1 := by
    rw [tokenize, List.length_append, List.length_singleton]
  have hd : (c.take (tokenize c.ahead).length).1 = tokenize c.ahead := by
    rw [hl, ← drain_eq_take, tokens_drain]
  calc (c.take n).1.take (tokenize c.ahead).length
    _ = (c.take (min (tokenize c.ahead).length n)).1 := take_take c _ n
    _ = (c.take (min n (tokenize c.ahead).length)).1 := by rw [Nat.min_comm]
    _ = (c.take (tokenize c.ahead).length).1.take n := (take_take c n _).symm
    _ = (tokenize c.ahead).take n := by rw [hd]

theorem Valid.head_behind (h : c.Valid) :
    c.head = (Head.start (c.source.drop c.position)).behind (c.source.take c.position) := by
  have hl : (c.source.take c.position).length = c.position := List.length_take_of_le h.bound
  have ha := Head.above_add (c.source.take c.position) (c.source.drop c.position) 0
  rw [List.take_append_drop, hl, Nat.add_zero] at ha
  rw [h.head_eq_above, ha]
  rfl

theorem Valid.peek?_head (h : c.Valid) : c.head.peek? = c.peek? := h.peek?_eq.symm

theorem Valid.take_afresh (h : c.Valid) (n : Nat) :
    (c.take n).1 = ((start (c.source.drop c.position)).take n).1 ∧
    (c.take n).2.head =
      ((start (c.source.drop c.position)).take n).2.head.behind (c.source.take c.position) := by
  have hc := h.take_head n
  have hf := (start_valid (c.source.drop c.position)).take_head n
  rw [head_start] at hf
  rw [h.head_behind, Head.take_behind, hf] at hc
  exact ⟨(congrArg Prod.fst hc).symm, (congrArg Prod.snd hc).symm⟩

theorem Valid.place_afresh (h : c.Valid) (n : Nat) :
    let fresh := ((start (c.source.drop c.position)).take n).2
    (c.take n).2.position = c.position + fresh.position ∧
    (c.take n).2.current? = fresh.current? ∧ (c.take n).2.peek? = fresh.peek? := by
  intro fresh
  have hh : (c.take n).2.head = fresh.head.behind (c.source.take c.position) :=
    (h.take_afresh n).2
  have hl : (c.source.take c.position).length = c.position := List.length_take_of_le h.bound
  refine ⟨?_, congrArg Head.current? hh, ?_⟩
  · have hp : (c.take n).2.position = (c.source.take c.position).length + fresh.position :=
      congrArg Head.position hh
    rw [hp, hl]
  · rw [← (h.take n).peek?_head, hh, Head.peek?_behind]
    exact ((start_valid _).take n).peek?_head

end Cursor

namespace Session

theorem resumes_afresh (source : Text) (actions : List Action) :
    let s := (start source).after actions
    let p := s.cursor.position
    let rest := source.drop p
    (s.act .drain).1 = .tokens (tokenize rest) ∧
    (∀ n, s.cursor.head.take n =
      (((Head.start rest).take n).1, ((Head.start rest).take n).2.behind (source.take p))) ∧
    ∀ more,
      let fresh := (Cursor.start rest).take (s.handed more).length
      let last := (s.after more).cursor
      s.handed more = fresh.1 ∧
      (s.handed more).take (tokenize rest).length =
        (tokenize rest).take (s.handed more).length ∧
      last.position = p + fresh.2.position ∧
      last.current? = fresh.2.current? ∧ last.peek? = fresh.2.peek? := by
  intro s p rest
  have hv : s.cursor.Valid := valid_after source actions
  have hs : s.cursor.source = source := source_after source actions
  have ha : s.cursor.ahead = rest := by rw [hv.ahead, hs]
  have hh : s.cursor.head = (Head.start rest).behind (source.take p) := by
    rw [hv.head_behind, hs]
  refine ⟨?_, ?_, ?_⟩
  · exact drain_after source actions
  · intro n
    rw [hh, Head.take_behind]
  · intro more fresh last
    have ht := (hv.take_afresh (s.handed more).length).1
    have hp := hv.place_afresh (s.handed more).length
    rw [hs] at ht hp
    rw [← handed_eq_take] at ht
    rw [← cursor_eq_take] at hp
    refine ⟨ht, ?_, hp⟩
    have hk := Cursor.take_tokens s.cursor (s.handed more).length
    rwa [← handed_eq_take, ha] at hk

end Session
end Lexeme
