import Lexeme.Proofs.Reading
import Lexeme.Token.Cursor

/-!
How a cursor moves through its source. Asking for tokens one by one, many at once or up to the end
are the same walk: `take_add` splits it anywhere and `drain_eq_take` counts its last part. The
tokens met on the way are those of the text ahead, in order, and then the end token for ever, by
`getElem?_take`. The walk never leaves the source, and what is ahead is what the position says.
-/

namespace Lexeme.Cursor

theorem next_of_none {c : Cursor} (h : next? c.ahead = none) : c.next = (Token.eof, c.atEnd) := by
  simp only [next, h]

theorem next_of_some {c : Cursor} {f : Found} (h : next? c.ahead = some f) :
    c.next = (f.token, c.past f) := by
  simp only [next, h]

theorem length_take (n : Nat) (c : Cursor) : (c.take n).1.length = n := by
  induction n generalizing c with
  | zero => rfl
  | succ n ih =>
    have := ih c.next.2
    simp only [take, List.length_cons]
    omega

theorem take_one (c : Cursor) : c.take 1 = ([c.next.1], c.next.2) := rfl

theorem take_add (m n : Nat) (c : Cursor) :
    c.take (m + n) = ((c.take m).1 ++ ((c.take m).2.take n).1, ((c.take m).2.take n).2) := by
  induction m generalizing c with
  | zero =>
    rw [Nat.zero_add]
    rfl
  | succ m ih =>
    have h := ih c.next.2
    rw [Nat.add_right_comm]
    simp only [take, h, List.cons_append]

theorem drain_eq_take (c : Cursor) : c.drain = c.take ((lexemes c.ahead).length + 1) := by
  induction c using drain.induct with
  | case1 c h =>
    rw [drain_of_none h, lexemes_of_gap (next?_eq_none_iff.1 h)]
    simp only [List.length_nil, Nat.zero_add, take_one, next_of_none h]
  | case2 c f h ih =>
    have hl : lexemes c.ahead = f.token :: lexemes (c.past f).ahead := lexemes_of_next h
    rw [drain_of_some h, ih, hl]
    simp only [List.length_cons, take, next_of_some h]

theorem tokens_drain (c : Cursor) : c.drain.1 = tokenize c.ahead := by
  induction c using drain.induct with
  | case1 c h => rw [drain_of_none h, tokenize_of_gap (next?_eq_none_iff.1 h)]
  | case2 c f h ih =>
    rw [drain_of_some h, tokenize_of_next h, ih]
    rfl

theorem getElem?_take {n j : Nat} (c : Cursor) (hj : j < n) :
    (c.take n).1[j]? = (tokenize c.ahead)[min j ((tokenize c.ahead).length - 1)]? := by
  induction n generalizing c j with
  | zero => omega
  | succ n ih =>
    cases h : next? c.ahead with
    | none =>
      have ht : tokenize c.ahead = [Token.eof] := tokenize_of_gap (next?_eq_none_iff.1 h)
      have ha : tokenize c.atEnd.ahead = [Token.eof] := tokenize_of_gap (by simp [IsGap, atEnd])
      simp only [take, next_of_none h, ht]
      cases j with
      | zero => rfl
      | succ j =>
        have hi := ih c.atEnd (j := j) (by omega)
        simpa [ha] using hi
    | some f =>
      have ht : tokenize c.ahead = f.token :: tokenize (c.past f).ahead := tokenize_of_next h
      have hp : 0 < (tokenize (c.past f).ahead).length := by simp [tokenize]
      simp only [take, next_of_some h, ht]
      cases j with
      | zero => simp
      | succ j =>
        have hm : min (j + 1) ((tokenize (c.past f).ahead).length + 1 - 1) =
            min j ((tokenize (c.past f).ahead).length - 1) + 1 := by omega
        rw [List.length_cons, hm, List.getElem?_cons_succ, List.getElem?_cons_succ]
        exact ih (c.past f) (by omega)

structure Valid (c : Cursor) : Prop where
  bound : c.position ≤ c.source.length
  ahead : c.ahead = c.source.drop c.position

theorem start_valid (source : Text) : (start source).Valid := ⟨Nat.zero_le _, rfl⟩

theorem Valid.next {c : Cursor} (h : c.Valid) : c.next.2.Valid := by
  have hl := congrArg List.length h.ahead
  simp only [List.length_drop] at hl
  cases hn : next? c.ahead with
  | none =>
    rw [next_of_none hn]
    have hb := h.bound
    refine ⟨?_, ?_⟩
    · simp only [atEnd]
      omega
    · simp only [atEnd]
      rw [List.drop_eq_nil_of_le (by omega)]
  | some f =>
    rw [next_of_some hn]
    have hs := next?_split hn
    have hc := congrArg List.length hs
    simp only [List.length_append] at hc
    have hb := h.bound
    refine ⟨?_, ?_⟩
    · simp only [past]
      omega
    · simp only [past]
      rw [Nat.add_assoc, ← List.drop_drop, ← h.ahead, hs, ← List.length_append, List.drop_left]

theorem Valid.take {c : Cursor} (h : c.Valid) (n : Nat) : (c.take n).2.Valid := by
  induction n generalizing c with
  | zero => exact h
  | succ n ih => exact ih h.next

theorem source_next (c : Cursor) : c.next.2.source = c.source := by
  cases h : next? c.ahead with
  | none => rw [next_of_none h, atEnd]
  | some f => rw [next_of_some h, past]

theorem source_take (n : Nat) (c : Cursor) : (c.take n).2.source = c.source := by
  induction n generalizing c with
  | zero => rfl
  | succ n ih => exact (ih c.next.2).trans (source_next c)

end Lexeme.Cursor
