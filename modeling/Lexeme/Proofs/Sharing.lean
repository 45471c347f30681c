import Lexeme.Proofs.Advance
import Lexeme.Token.Session

/-!
Readers that share a cursor take turns at one row of tokens. Whatever an action hands out, it is the
next part of the walk of the cursor, so a session is known by how many tokens it has handed out.
What a stream remembers beside that is whether it has handed out an end token, and a drain hands out
the tokens of all that is left. The main statement is `handed_in_order`; it is about any list of
actions on a new session.
-/

namespace Lexeme.Session

/-- The tokens handed out in the course of actions, by whichever route. -/
def handed (s : Session) (actions : List Action) : List Token :=
  (s.run actions).flatMap fun r => r.1.handed

def given (s : Session) (i : Nat) (a : Action) : List Token :=
  if a = .pull i then (s.act a).1.handed else []

/-- The tokens handed out through one stream in the course of actions. -/
def yielded (s : Session) (i : Nat) : List Action → List Token
  | [] => []
  | a :: rest => s.given i a ++ (s.act a).2.yielded i rest

theorem handed_cons (s : Session) (a : Action) (rest : List Action) :
    s.handed (a :: rest) = (s.act a).1.handed ++ (s.act a).2.handed rest := rfl

theorem after_cons (s : Session) (a : Action) (rest : List Action) :
    s.after (a :: rest) = (s.act a).2.after rest := rfl

theorem pull_unfinished {s : Session} {i : Nat} (h : s.streams[i]? = some false) :
    s.pull i = (.token s.cursor.next.1,
      ⟨s.cursor.next.2, s.streams.set i (s.cursor.next.1.kind == .eof)⟩) := by
  simp only [pull, h]

theorem pull_finished {s : Session} {i : Nat} (h : s.streams[i]? ≠ some false) :
    s.pull i = (.finished, s) := by
  rw [pull]
  split
  · next hf => exact absurd hf h
  · rfl

theorem act_eq_take (s : Session) (a : Action) :
    ∃ n, s.cursor.take n = ((s.act a).1.handed, (s.act a).2.cursor) := by
  cases a with
  | next => exact ⟨1, rfl⟩
  | take n => exact ⟨n, rfl⟩
  | peek | source | openStream => exact ⟨0, rfl⟩
  | drain => exact ⟨_, (Cursor.drain_eq_take s.cursor).symm⟩
  | pull i =>
    by_cases h : s.streams[i]? = some false
    · refine ⟨1, ?_⟩
      simp only [act, pull_unfinished h, Reply.handed, Cursor.take_one]
    · refine ⟨0, ?_⟩
      simp only [act, pull_finished h, Reply.handed, Cursor.take]

theorem run_eq_take (s : Session) (actions : List Action) :
    s.cursor.take (s.handed actions).length = (s.handed actions, (s.after actions).cursor) := by
  have walk : ∃ n, s.cursor.take n = (s.handed actions, (s.after actions).cursor) := by
    induction actions generalizing s with
    | nil => exact ⟨0, rfl⟩
    | cons a rest ih =>
      obtain ⟨m, hm⟩ := act_eq_take s a
      obtain ⟨n, hn⟩ := ih (s.act a).2
      refine ⟨m + n, ?_⟩
      rw [Cursor.take_add, hm, handed_cons, after_cons]
      simp only [hn]
  obtain ⟨n, hn⟩ := walk
  have hl := Cursor.length_take n s.cursor
  rw [hn] at hl
  rw [hl, hn]

theorem handed_eq_take (s : Session) (actions : List Action) :
    s.handed actions = (s.cursor.take (s.handed actions).length).1 :=
  (congrArg Prod.fst (run_eq_take s actions)).symm

theorem cursor_eq_take (s : Session) (actions : List Action) :
    (s.after actions).cursor = (s.cursor.take (s.handed actions).length).2 :=
  (congrArg Prod.snd (run_eq_take s actions)).symm

theorem cursor_after (source : Text) (actions : List Action) :
    ((start source).after actions).cursor =
      ((Cursor.start source).take ((start source).handed actions).length).2 :=
  cursor_eq_take (start source) actions

theorem valid_after (source : Text) (actions : List Action) :
    ((start source).after actions).cursor.Valid := by
  rw [cursor_after]
  exact (Cursor.start_valid source).take _

theorem source_after (source : Text) (actions : List Action) :
    ((start source).after actions).cursor.source = source := by
  rw [cursor_after]
  exact Cursor.source_take _ (Cursor.start source)

theorem drain_after (source : Text) (actions : List Action) :
    let s := (start source).after actions
    (s.act .drain).1 = .tokens (tokenize (source.drop s.cursor.position)) := by
  intro s
  have ha : s.cursor.ahead = source.drop s.cursor.position := by
    rw [(valid_after source actions).ahead, source_after]
  rw [← ha, ← Cursor.tokens_drain]
  rfl

theorem length_streams_act (s : Session) (a : Action) :
    (s.act a).2.streams.length = s.streams.length + [a].count .openStream := by
  cases a with
  | openStream => simp [act]
  | pull i =>
    by_cases h : s.streams[i]? = some false
    · simp [act, pull_unfinished h]
    · simp [act, pull_finished h]
  | _ => simp [act]

theorem length_streams_after (s : Session) (actions : List Action) :
    (s.after actions).streams.length = s.streams.length + actions.count .openStream := by
  induction actions generalizing s with
  | nil => rfl
  | cons a rest ih =>
    have hc : (a :: rest).count .openStream = [a].count .openStream + rest.count .openStream := by
      rw [← List.count_append, List.singleton_append]
    have ha := length_streams_act s a
    rw [after_cons, ih, ha, hc]
    omega

theorem given_of_ne {i : Nat} {a : Action} (h : a ≠ .pull i) (s : Session) : s.given i a = [] := by
  simp only [given, if_neg h]

theorem given_unfinished {s : Session} {i : Nat} (h : s.streams[i]? = some false) :
    s.given i (.pull i) = [s.cursor.next.1] := by
  simp only [given, if_true, act, pull_unfinished h, Reply.handed]

theorem given_finished {s : Session} {i : Nat} (h : s.streams[i]? ≠ some false) :
    s.given i (.pull i) = [] := by
  simp only [given, if_true, act, pull_finished h, Reply.handed]

theorem given_of_finished {s : Session} {i : Nat} (h : s.streams[i]? = some true) (a : Action) :
    s.given i a = [] := by
  by_cases ha : a = .pull i
  · rw [ha]
    exact given_finished (by simp [h])
  · exact given_of_ne ha s

theorem length_given_le (s : Session) (i : Nat) (a : Action) : (s.given i a).length ≤ 1 := by
  by_cases ha : a = .pull i
  · rw [ha]
    by_cases h : s.streams[i]? = some false
    · simp [given_unfinished h]
    · simp [given_finished h]
  · simp [given_of_ne ha]

theorem finished_act_iff (s : Session) (i : Nat) (a : Action) :
    (s.act a).2.streams[i]? = some true ↔
      s.streams[i]? = some true ∨ ∃ t ∈ s.given i a, t.kind = .eof := by
  cases a with
  | pull j =>
    by_cases h : s.streams[j]? = some false
    · by_cases hj : j = i
      · subst hj
        obtain ⟨hl, hv⟩ := List.getElem?_eq_some_iff.1 h
        rw [given_unfinished h]
        simp [act, pull_unfinished h, hl, hv]
      · rw [given_of_ne (by simp [hj])]
        simp [act, pull_unfinished h, List.getElem?_set_ne hj]
    · have hg : s.given i (.pull j) = [] := by
        by_cases hj : j = i
        · subst hj
          exact given_finished h
        · exact given_of_ne (by simp [hj]) s
      simp [act, pull_finished h, hg]
  | openStream =>
    rw [given_of_ne (by simp)]
    simp only [act, List.getElem?_append]
    split <;> simp_all [List.getElem?_singleton]
  | _ =>
    rw [given_of_ne (by simp)]
    simp [act]

theorem finished_after_iff (s : Session) (i : Nat) (actions : List Action) :
    (s.after actions).streams[i]? = some true ↔
      s.streams[i]? = some true ∨ ∃ t ∈ s.yielded i actions, t.kind = .eof := by
  induction actions generalizing s with
  | nil => simp [after, yielded]
  | cons a rest ih =>
    rw [after_cons, ih, finished_act_iff, or_assoc]
    simp only [yielded, List.mem_append, or_and_right, exists_or]

theorem yielded_of_finished {s : Session} {i : Nat} (h : s.streams[i]? = some true)
    (actions : List Action) : s.yielded i actions = [] := by
  induction actions generalizing s with
  | nil => rfl
  | cons a rest ih =>
    have ha := (finished_act_iff s i a).2 (.inl h)
    rw [yielded, given_of_finished h, ih ha, List.append_nil]

theorem eof_last_of_yielded (s : Session) (i : Nat) (actions : List Action) {k : Nat} {t : Token}
    (hk : (s.yielded i actions)[k]? = some t) (ht : t.kind = .eof) :
    k + 1 = (s.yielded i actions).length := by
  induction actions generalizing s k with
  | nil => simp [yielded] at hk
  | cons a rest ih =>
    have hl := length_given_le s i a
    cases hg : s.given i a with
    | nil =>
      rw [yielded, hg, List.nil_append] at hk ⊢
      exact ih _ hk
    | cons u us =>
      rw [hg, List.length_cons] at hl
      obtain rfl : us = [] := List.length_eq_zero_iff.1 (by omega)
      rw [yielded, hg, List.singleton_append] at hk ⊢
      by_cases hu : u.kind = .eof
      · have hf : (s.act a).2.streams[i]? = some true :=
          (finished_act_iff s i a).2 (.inr ⟨u, by simp [hg], hu⟩)
        rw [yielded_of_finished hf] at hk ⊢
        have hlt := (List.getElem?_eq_some_iff.1 hk).1
        simp only [List.length_cons, List.length_nil] at hlt ⊢
        omega
      · cases k with
        | zero =>
          obtain rfl : u = t := by simpa using hk
          exact absurd ht hu
        | succ k =>
          rw [List.getElem?_cons_succ] at hk
          have := ih _ hk
          simp only [List.length_cons]
          omega

theorem unfinished_of_opened {source : Text} {actions : List Action} {i : Nat}
    (hi : i < actions.count .openStream)
    (h : ∀ t ∈ (start source).yielded i actions, t.kind ≠ .eof) :
    ((start source).after actions).streams[i]? = some false := by
  have hl := length_streams_after (start source) actions
  have hf := finished_after_iff (start source) i actions
  have hs : (start source).streams = [] := rfl
  rw [hs, List.length_nil, Nat.zero_add] at hl
  cases hb : ((start source).after actions).streams[i]? with
  | none =>
    have := List.getElem?_eq_none_iff.1 hb
    omega
  | some b =>
    cases b with
    | false => rfl
    | true =>
      rcases hf.1 hb with hn | ⟨t, ht, hk⟩
      · exact absurd hn (by simp [hs])
      · exact absurd hk (h t ht)

theorem next_at_end {source : Text} {actions : List Action}
    (h : ((start source).after actions).cursor.position = source.length) :
    ((start source).after actions).cursor.next.1 = Token.eof := by
  have ha : ((start source).after actions).cursor.ahead = [] := by
    rw [(valid_after source actions).ahead, source_after, h, List.drop_length]
  have hn : next? ((start source).after actions).cursor.ahead = none :=
    next?_eq_none_iff.2 (by simp [ha, IsGap])
  rw [Cursor.next_of_none hn]

theorem handed_in_order (source : Text) (actions : List Action) :
    let s := start source
    let last := s.after actions
    let ts := tokenize source
    (∀ j < (s.handed actions).length, (s.handed actions)[j]? = ts[min j (ts.length - 1)]?) ∧
    (∀ i k t, (s.yielded i actions)[k]? = some t → t.kind = .eof →
      k + 1 = (s.yielded i actions).length) ∧
    (∀ i, (∃ t ∈ s.yielded i actions, t.kind = .eof) → last.act (.pull i) = (.finished, last)) ∧
    (∀ i < actions.count .openStream, (∀ t ∈ s.yielded i actions, t.kind ≠ .eof) →
      ∃ t, (last.act (.pull i)).1 = .token t ∧
        (last.cursor.position = source.length → t = Token.eof)) ∧
    (∀ others, (s.handed others).length = (s.handed actions).length →
      (s.after others).cursor.position = last.cursor.position ∧
      (s.after others).cursor.readPosition = last.cursor.readPosition ∧
      (s.after others).cursor.current? = last.cursor.current?) ∧
    (last.act .drain).1 = .tokens (tokenize (source.drop last.cursor.position)) := by
  intro s last ts
  refine ⟨?_, ?_, ?_, ?_, ?_, drain_after source actions⟩
  · intro j hj
    have ht := Cursor.getElem?_take s.cursor hj
    rw [run_eq_take] at ht
    exact ht
  · intro i k t hk ht
    exact eof_last_of_yielded s i actions hk ht
  · intro i h
    have hf := (finished_after_iff s i actions).2 (.inr h)
    exact pull_finished (by simp [last, hf])
  · intro i hi h
    have hu : last.streams[i]? = some false := unfinished_of_opened hi h
    refine ⟨last.cursor.next.1, ?_, next_at_end⟩
    simp only [act, pull_unfinished hu]
  · intro others ho
    have hc : (s.after others).cursor = last.cursor := by
      rw [cursor_after, ho, ← cursor_after]
    simp only [hc, and_self]

end Lexeme.Session
