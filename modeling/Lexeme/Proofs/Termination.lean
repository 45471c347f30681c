import Lexeme.Proofs.Resuming
import Lexeme.Proofs.Span

/-!
How long a scan can go on. A loop pays for every move with a character that is `left` under the head,
by `loops_skip`, a token that is handed out is paid for with a character that is no white space, by
`length_lexemes_le`, and a stream hands out one end token at most. What is left of the source bounds
all that a session can still do, whoever else moves its cursor in between. The main statement is
`scanning_ends`.
-/

namespace Lexeme

namespace Head

/-- The loop over a class of characters goes from one head to another in a number of moves. -/
inductive Loops (q : Char → Bool) : Head → Nat → Head → Prop
  | stop {h : Head} (hq : ¬ h.current?.any q = true) : Loops q h 0 h
  | move {h last : Head} {n : Nat} (hq : h.current?.any q = true) (hm : Loops q h.move n last) :
      Loops q h (n + 1) last

/-- What is left is counted down by the moves, so that it bounds them and not only ends them. -/
theorem loops_skip (q : Char → Bool) (h : Head) :
    ∃ n, Loops q h n (h.skip q) ∧ n + (h.skip q).left ≤ h.left := by
  induction h using skip.induct q with
  | case1 h hq ih =>
    obtain ⟨n, hn, hl⟩ := ih
    have hm := left_move_lt hq
    rw [skip_of_any hq]
    exact ⟨n + 1, .move hq hn, by omega⟩
  | case2 h hq =>
    rw [skip_of_not_any hq]
    exact ⟨0, .stop hq, by omega⟩

theorem left_above {source : Text} {n : Nat} (h : n ≤ source.length) :
    (above source n).left = source.length - n := by
  rcases Nat.lt_or_ge n source.length with hn | hn
  · simp only [left, above, List.getElem?_eq_getElem hn, Option.toList_some, List.length_singleton]
    omega
  · simp only [left, above, List.getElem?_eq_none hn, Option.toList_none, List.length_nil]
    omega

end Head

theorem length_lexemes_le (s : Text) : (lexemes s).length ≤ s.countP fun c => !isSpace c := by
  induction s using scan.induct with
  | case1 s h =>
    rw [lexemes_of_gap (next?_eq_none_iff.1 h)]
    exact Nat.zero_le _
  | case2 s f h ih =>
    have hp := next?_proper h
    have ht : 0 < f.token.text.countP fun c => !isSpace c := by
      obtain ⟨c, hc⟩ := List.exists_mem_of_ne_nil _ hp.token.text_ne_nil
      exact List.countP_pos_iff.2 ⟨c, hc, by simp [hp.token.not_isSpace hc]⟩
    rw [lexemes_of_next h, List.length_cons, next?_split h, List.countP_append, List.countP_append]
    omega

theorem length_tokenize_le (s : Text) :
    (tokenize s).length ≤ (s.countP fun c => !isSpace c) + 1 := by
  rw [tokenize, List.length_append, List.length_singleton]
  exact Nat.succ_le_succ (length_lexemes_le s)

namespace Cursor

theorem length_tokenize_next_le (c : Cursor) :
    (tokenize c.next.2.ahead).length ≤ (tokenize c.ahead).length := by
  cases h : next? c.ahead with
  | none =>
    have he : tokenize c.atEnd.ahead = [Token.eof] := tokenize_of_gap (by simp [IsGap, atEnd])
    rw [next_of_none h, tokenize_of_gap (next?_eq_none_iff.1 h), he]
  | some f =>
    rw [next_of_some h, tokenize_of_next h]
    exact Nat.le_succ _

theorem length_tokenize_take_le (n : Nat) (c : Cursor) :
    (tokenize (c.take n).2.ahead).length ≤ (tokenize c.ahead).length := by
  induction n generalizing c with
  | zero => exact Nat.le_refl _
  | succ n ih => exact (ih c.next.2).trans (length_tokenize_next_le c)

variable {c : Cursor}

theorem Valid.loops_head (h : c.Valid) (q r : Char → Bool) :
    ∃ m n, c.head.Loops q m (c.head.skip q) ∧
      (c.head.skip q).Loops r n ((c.head.skip q).skip r) ∧
      m + n ≤ c.source.length - c.position := by
  obtain ⟨m, hm, hl⟩ := Head.loops_skip q c.head
  obtain ⟨n, hn, hr⟩ := Head.loops_skip r (c.head.skip q)
  have hh : c.head.left = c.source.length - c.position := by
    rw [h.head_eq_above, Head.left_above h.bound]
  exact ⟨m, n, hm, hn, by omega⟩

theorem Valid.position_lt_next (h : c.Valid) (hk : c.next.1.kind ≠ .eof) :
    c.position < c.next.2.position := by
  have hs := h.spans_next hk
  have ht := List.length_pos_iff.2 hs.nonempty
  have hb := hs.bounds.1
  omega

end Cursor

namespace Session

/-- The most tokens that a stream can still hand out: none once it is finished, and else as many as
the text ahead has. -/
def due (s : Session) (i : Nat) : Nat :=
  if s.streams[i]? = some true then 0 else (tokenize s.cursor.ahead).length

variable {s : Session} {i : Nat}

theorem due_of_finished (h : s.streams[i]? = some true) : s.due i = 0 := if_pos h

theorem due_of_unfinished (h : s.streams[i]? ≠ some true) :
    s.due i = (tokenize s.cursor.ahead).length := if_neg h

theorem due_le (s : Session) (i : Nat) : s.due i ≤ (tokenize s.cursor.ahead).length := by
  rw [due]
  split
  · exact Nat.zero_le _
  · exact Nat.le_refl _

theorem due_pos (h : s.streams[i]? ≠ some true) : 0 < s.due i := by
  rw [due_of_unfinished h, tokenize, List.length_append]
  exact Nat.succ_pos _

theorem length_tokenize_act_le (s : Session) (a : Action) :
    (tokenize (s.act a).2.cursor.ahead).length ≤ (tokenize s.cursor.ahead).length := by
  obtain ⟨n, hn⟩ := act_eq_take s a
  have ht := Cursor.length_tokenize_take_le n s.cursor
  rwa [hn] at ht

theorem due_pull_lt (h : s.streams[i]? = some false) : (s.act (.pull i)).2.due i < s.due i := by
  have hs := due_of_unfinished (s := s) (i := i) (by simp [h])
  have hf := finished_act_iff s i (.pull i)
  rw [given_unfinished h] at hf
  -- The end token finishes the stream; any other leaves a text ahead that has one token less.
  cases hn : next? s.cursor.ahead with
  | none =>
    have he : (s.act (.pull i)).2.streams[i]? = some true :=
      hf.2 (.inr ⟨_, List.mem_singleton_self _, by rw [Cursor.next_of_none hn]; rfl⟩)
    rw [due_of_finished he]
    exact due_pos (by simp [h])
  | some f =>
    have ha : (s.act (.pull i)).2.cursor.ahead = f.rest := by
      simp only [act, pull_unfinished h, Cursor.next_of_some hn, Cursor.past]
    have hd := due_le (s.act (.pull i)).2 i
    rw [ha] at hd
    rw [hs, tokenize_of_next hn, List.length_cons]
    exact Nat.lt_succ_of_le hd

/-- What a stream hands out is taken from what it had due, and no action adds to that. -/
theorem length_given_add_due_le (s : Session) (i : Nat) (a : Action) :
    (s.given i a).length + (s.act a).2.due i ≤ s.due i := by
  by_cases hf : s.streams[i]? = some true
  · have hd := due_of_finished ((finished_act_iff s i a).2 (.inl hf))
    rw [given_of_finished hf, hd]
    exact Nat.zero_le _
  · by_cases hu : a = .pull i ∧ s.streams[i]? = some false
    · obtain ⟨rfl, hu⟩ := hu
      have hd := due_pull_lt hu
      rw [given_unfinished hu, List.length_singleton]
      omega
    · have hg : s.given i a = [] := by
        by_cases ha : a = .pull i
        · subst ha
          exact given_finished fun h => hu ⟨rfl, h⟩
        · exact given_of_ne ha s
      rw [hg, due_of_unfinished hf, List.length_nil, Nat.zero_add]
      exact (due_le _ i).trans (length_tokenize_act_le s a)

theorem length_yielded_add_due_le (s : Session) (i : Nat) (actions : List Action) :
    (s.yielded i actions).length + (s.after actions).due i ≤ s.due i := by
  induction actions generalizing s with
  | nil =>
    rw [yielded, List.length_nil, Nat.zero_add]
    exact Nat.le_refl _
  | cons a rest ih =>
    have ha := length_given_add_due_le s i a
    have hr := ih (s.act a).2
    rw [yielded, List.length_append, after_cons]
    omega

/-- A stream that is not finished has answered every pull with a token. -/
theorem count_pull_of_unfinished {actions : List Action} (hi : i < s.streams.length)
    (h : (s.after actions).streams[i]? ≠ some true) :
    actions.count (.pull i) = (s.yielded i actions).length := by
  induction actions generalizing s with
  | nil => rfl
  | cons a rest ih =>
    have hl := length_streams_act s a
    have hr := ih (s := (s.act a).2) (by omega) h
    rw [yielded, List.length_append, ← hr]
    by_cases ha : a = .pull i
    · subst ha
      have hu : s.streams[i]? = some false := by
        cases hb : s.streams[i]? with
        | none => exact absurd (List.getElem?_eq_none_iff.1 hb) (by omega)
        | some b =>
          cases b with
          | false => rfl
          | true => exact absurd ((finished_after_iff s i _).2 (.inl hb)) h
      rw [given_unfinished hu, List.length_singleton, List.count_cons_self, Nat.add_comm]
    · rw [given_of_ne ha, List.count_cons_of_ne ha, List.length_nil, Nat.zero_add]

theorem length_yielded_le (s : Session) (i : Nat) (actions : List Action) :
    (s.yielded i actions).length ≤ (tokenize s.cursor.ahead).length := by
  have hy := length_yielded_add_due_le s i actions
  exact (Nat.le_of_add_right_le hy).trans (due_le s i)

theorem finished_of_pulls {actions : List Action} (hi : i < s.streams.length)
    (h : (tokenize s.cursor.ahead).length ≤ actions.count (.pull i)) :
    (s.after actions).streams[i]? = some true := by
  by_contra hf
  have hy := length_yielded_add_due_le s i actions
  have hp := due_pos hf
  have hd := due_le s i
  rw [count_pull_of_unfinished hi hf] at h
  omega

theorem scanning_ends (source : Text) (actions : List Action) :
    let s := (start source).after actions
    let p := s.cursor.position
    let h := s.cursor.head
    let k := (source.drop p).countP fun c => !isSpace c
    (∀ q r, ∃ m n, h.Loops q m (h.skip q) ∧ (h.skip q).Loops r n ((h.skip q).skip r) ∧
      m + n ≤ source.length - p) ∧
    (∃ t, (s.act .next).1 = .token t ∧ h.next = (t, (s.act .next).2.cursor.head) ∧
      (t.kind ≠ .eof → p < (s.act .next).2.cursor.position)) ∧
    ((s.act .drain).1 = .tokens (tokenize (source.drop p)) ∧
      (tokenize (source.drop p)).length ≤ k + 1) ∧
    (∀ i ≤ s.streams.length, ∀ more,
      let o := (s.act .openStream).2
      (o.yielded i more).length ≤ k + 1 ∧
      (k < more.count (.pull i) →
        (o.after more).act (.pull i) = (.finished, o.after more))) ∧
    (tokenize source).length ≤ source.length + 1 := by
  intro s p h k
  have hv : s.cursor.Valid := valid_after source actions
  have hs : s.cursor.source = source := source_after source actions
  have ha : s.cursor.ahead = source.drop p := by rw [hv.ahead, hs]
  have hk : (tokenize (source.drop p)).length ≤ k + 1 := length_tokenize_le _
  refine ⟨?_, ⟨s.cursor.next.1, rfl, hv.next_head, hv.position_lt_next⟩, ⟨?_, hk⟩, ?_, ?_⟩
  · intro q r
    have hl := hv.loops_head q r
    rwa [hs] at hl
  · rw [← ha, ← Cursor.tokens_drain]
    rfl
  · intro i hi more o
    have ho : (tokenize o.cursor.ahead).length ≤ k + 1 := by
      change (tokenize s.cursor.ahead).length ≤ k + 1
      rwa [ha]
    have hl : o.streams.length = s.streams.length + 1 := length_streams_act s .openStream
    refine ⟨(length_yielded_le o i more).trans ho, fun hc => ?_⟩
    have hf : (o.after more).streams[i]? = some true :=
      finished_of_pulls (by omega) (ho.trans hc)
    exact pull_finished (by simp [hf])
  · have hc : (source.countP fun c => !isSpace c) ≤ source.length := List.countP_le_length
    exact (length_tokenize_le source).trans (Nat.succ_le_succ hc)

/-- Two characters are ahead that are no white space; another stream takes the end token first. -/
theorem scanning_ends_after_mark :
    let source := "a  == ".toList
    let s := (start source).after [.openStream, .pull 0]
    let o := (s.act .openStream).2
    let pulls : List Action := [.pull 1, .pull 0, .pull 1, .pull 1]
    s.cursor.position = 1 ∧ 1 < (s.act .next).2.cursor.position ∧
    (o.yielded 1 pulls).length ≤ 3 ∧
    (o.after pulls).act (.pull 1) = (.finished, o.after pulls) := by
  intro source s o pulls
  obtain ⟨-, ⟨t, ht, -, hp⟩, -, hf, -⟩ := scanning_ends source [.openStream, .pull 0]
  obtain rfl : Token.ofMark .eq = t := Reply.token.inj ht
  obtain ⟨hl, hd⟩ := hf 1 (by decide) pulls
  exact ⟨rfl, hp (by decide), hl, hd (by decide)⟩

end Session

end Lexeme
