import Lexeme.Proofs.Printing
import Lexeme.Proofs.Stepping

/-!
A scan accounts for itself. It reports each foreign point of the source at the place where the point
stands, in the order of the places, by `placed_foreign`: an induction on the scan of a text, in which
the offset of the next finding is that of everything before it, and then one over the stretches
between surrogates. A head that moves over a text character by character and notes the place it
stands at before a token is taken notes the same, by `notes_head`. The summary of a verbose run
counts these reports, and it counts all tokens where the output may have left one out. The main
statement is `log_and_summary_account`.
-/

namespace Lexeme

/-- The report of a piece at its offset, if it is one to report. -/
def Event.ofPlaced? (p : Nat × Piece) : Option Event :=
  if p.2.kind = .illegal then some (.foreign p.1 p.2.text) else none

/-- The reports of the foreign points of a raw text that starts at an offset. -/
def foreignFrom (offset : Nat) (s : Raw) : List Event :=
  ((s.zipIdx offset).filter fun p => p.1.isForeign).map fun p => .foreign p.2 [p.1]

namespace Head

/-- What the head notes of the next token before it moves over it: a foreign character, and the
place where it stands. -/
def noted (h : Head) : List Event :=
  let h := h.skip isSpace
  match h.current? with
  | none => []
  | some c => if (h.read c).1.kind = .illegal then [.foreign h.position [.char c]] else []

def notes : Nat → Head → List Event
  | 0, _ => []
  | n + 1, h => h.noted ++ notes n h.next.2

end Head

section Offsets

theorem foreignFrom_append (k : Nat) (s u : Raw) :
    foreignFrom k (s ++ u) = foreignFrom k s ++ foreignFrom (k + s.length) u := by
  simp only [foreignFrom, List.zipIdx_append, List.filter_append, List.map_append]

theorem length_foreignFrom (k : Nat) (s : Raw) :
    (foreignFrom k s).length = (s.filter Point.isForeign).length := by
  induction s generalizing k with
  | nil => rfl
  | cons p s ih =>
    have hp : foreignFrom k (p :: s) = foreignFrom k [p] ++ foreignFrom (k + 1) s :=
      foreignFrom_append k [p] s
    rw [hp, List.length_append, ih, List.filter_cons]
    by_cases hf : p.isForeign = true
    · simp [foreignFrom, hf, Nat.add_comm]
    · simp [foreignFrom, hf]

theorem foreignFrom_of_none {s : Text} (h : s.filter isForeign = []) (k : Nat) :
    foreignFrom k (Raw.ofText s) = [] := by
  apply List.eq_nil_of_length_eq_zero
  rw [length_foreignFrom, Raw.filter_isForeign_ofText, h]
  rfl

theorem foreignFrom_text {t : Token} (h : t.WellFormed) (k : Nat) :
    foreignFrom k (Raw.ofText t.text) = (Event.ofPlaced? (k, .token t)).toList := by
  by_cases hk : t.kind = .illegal
  · obtain ⟨c, rfl, hc⟩ := h.eq_ofForeign hk
    simp [foreignFrom, Event.ofPlaced?, Token.ofForeign, Raw.ofText, Point.isForeign, Piece.kind,
      Piece.text, hc]
  · have hp : (Piece.token t).kind ≠ .illegal := hk
    rw [foreignFrom_of_none (h.filter_isForeign hk), Event.ofPlaced?, if_neg hp]
    rfl

theorem foreignFrom_of_next {s : Text} {f : Found} (h : next? s = some f) (k : Nat) :
    foreignFrom k (Raw.ofText s) =
      (Event.ofPlaced? (k + f.gap.length, .token f.token)).toList ++
        foreignFrom (k + f.gap.length + f.token.text.length) (Raw.ofText f.rest) := by
  obtain ⟨hp, hs⟩ := next?_eq_some_iff.1 h
  have hg := foreignFrom_of_none hp.gap.filter_isForeign k
  have ht := foreignFrom_text hp.token (k + f.gap.length)
  have hr : Raw.ofText s = Raw.ofText f.gap ++ Raw.ofText f.token.text ++ Raw.ofText f.rest := by
    rw [← hs]
    simp [Raw.ofText]
  have hl (t : Text) : (Raw.ofText t).length = t.length := List.length_map ..
  rw [hr, foreignFrom_append, foreignFrom_append, hg, hl, ht, List.length_append, hl, hl,
    ← Nat.add_assoc, List.nil_append]

theorem placed_foreign_text (k : Nat) (s : Text) :
    (Piece.ofPlaced (placedFrom k (scan s))).filterMap Event.ofPlaced? =
      foreignFrom k (Raw.ofText s) := by
  induction s using scan.induct generalizing k with
  | case1 s h =>
    rw [scan_of_none h, foreignFrom_of_none (next?_eq_none_iff.1 h).filter_isForeign]
    rfl
  | case2 s f h ih =>
    rw [scan_of_some h, placedFrom, foreignFrom_of_next h, ← ih, Piece.ofPlaced, List.map_cons]
    cases hc : Event.ofPlaced? (k + f.gap.length, .token f.token) with
    | none => rw [List.filterMap_cons_none hc, Option.toList_none, List.nil_append, Piece.ofPlaced]
    | some e =>
      rw [List.filterMap_cons_some hc, Option.toList_some, List.singleton_append, Piece.ofPlaced]

theorem placed_foreign (k : Nat) (first : Text) (rest : List (Surrogate × Text)) :
    (Raw.placedFrom k first rest).filterMap Event.ofPlaced? =
      foreignFrom k (Raw.ofStretches first rest) := by
  induction rest generalizing k first with
  | nil => exact placed_foreign_text k first
  | cons p rest ih =>
    obtain ⟨x, next⟩ := p
    have hx (n : Nat) : Event.ofPlaced? (n, .stray x) = some (.foreign n [.surrogate x]) := rfl
    have hc (n : Nat) (s : Raw) : foreignFrom n (.surrogate x :: s) =
        .foreign n [.surrogate x] :: foreignFrom (n + 1) s := foreignFrom_append n [.surrogate x] s
    have hl : (Raw.ofText first).length = first.length := List.length_map ..
    rw [Raw.placedFrom, List.filterMap_append, placed_foreign_text,
      List.filterMap_cons_some (hx _), ih, Raw.ofStretches, foreignFrom_append, hc, hl]

theorem trace_eq (s : Raw) : trace s = .primed s.head? :: foreignFrom 0 s := by
  have h := placed_foreign 0 s.stretches.1 s.stretches.2
  rw [Raw.ofStretches_stretches] at h
  rw [← h]
  rfl

theorem countP_illegal_pieces (k : Nat) (s : Raw) :
    (s.pieces.countP fun p => p.kind = .illegal) = (foreignFrom k s).length := by
  rw [List.countP_eq_length_filter, Raw.filter_illegal_pieces, List.length_map, length_foreignFrom]

end Offsets

namespace Cursor

theorem Valid.noted_head {c : Cursor} (h : c.Valid) :
    c.head.noted = match next? c.ahead with
      | none => []
      | some f => (Event.ofPlaced? (c.position + f.gap.length, .token f.token)).toList := by
  cases hn : next? c.ahead with
  | none =>
    obtain ⟨hs, hc⟩ := h.skip_head_of_none hn
    simp only [Head.noted, hs, hc]
  | some f =>
    obtain ⟨d, rest, hs, hc, hd, ht⟩ := h.skip_head_of_some hn
    simp only [Head.noted, hs, hc, Head.read_above hd, ← ht, Event.ofPlaced?, Piece.kind]
    by_cases hk : f.token.kind = .illegal
    · obtain ⟨e, he, -⟩ := (next?_proper hn).token.eq_ofForeign hk
      have hr := Token.read_split d rest
      rw [← ht, he, Token.ofForeign] at hr
      obtain ⟨rfl, -⟩ := List.cons.inj hr
      simp [he, Token.ofForeign, Head.above, Piece.text, Raw.ofText]
    · simp [hk]

theorem Valid.notes_head {c : Cursor} (h : c.Valid) :
    c.head.notes (tokenize c.ahead).length = foreignFrom c.position (Raw.ofText c.ahead) := by
  induction c using drain.induct with
  | case1 c hn =>
    have hg := next?_eq_none_iff.1 hn
    rw [tokenize_of_gap hg, foreignFrom_of_none hg.filter_isForeign, List.length_singleton,
      Head.notes, h.noted_head, hn]
    rfl
  | case2 c f hn ih =>
    have hv : (c.past f).Valid := by
      have hv := h.next
      rwa [next_of_some hn] at hv
    have hh : c.head.next.2 = (c.past f).head := by rw [h.next_head, next_of_some hn]
    have ih : (c.past f).head.notes (tokenize f.rest).length =
        foreignFrom _ (Raw.ofText f.rest) := ih hv
    rw [tokenize_of_next hn, List.length_cons, Head.notes, h.noted_head, hn, hh, ih,
      foreignFrom_of_next hn]
    rfl

end Cursor

theorem trace_eq_notes (s : Text) :
    trace (Raw.ofText s) = .primed ((Head.start s).current?.map .char) ::
      (Head.start s).notes (tokenize s).length := by
  have hc : (Raw.ofText s).head? = (Head.start s).current?.map .char := by
    rw [← Cursor.head_start]
    exact List.head?_map ..
  rw [trace_eq, hc, ← Cursor.head_start]
  exact congrArg (Event.primed _ :: ·) (Cursor.start_valid s).notes_head.symm

namespace Command

theorem line_eq (e : Event) : e.line = "DEBUG: ".toList ++ e.message ++ ['\n'] := by
  have hd : "DEBUG: ".toList = "DEBUG".toList ++ ": ".toList := by decide
  rw [hd]
  rfl

theorem log_and_summary_account (s : Raw) :
    let foreign := s.zipIdx.filter fun p => p.1.isForeign
    let messages : List Text :=
      ("lexer primed: position=0 read_position=1 char=".toList ++ Raw.quoted s.head?.toList) ::
        foreign.map fun p => "illegal character ".toList ++ Raw.quoted [p.1] ++
          " at offset ".toList ++ Text.decimal p.2
    let log := messages.flatMap fun m => "DEBUG: ".toList ++ m ++ ['\n']
    traceAt .debug s = .primed s.head? :: foreign.map (fun p => .foreign p.2 [p.1]) ∧
    (traceAt .debug s).map Event.message = messages ∧
    (∀ t, s = Raw.ofText t → traceAt .debug s =
      .primed ((Head.start t).current?.map .char) :: (Head.start t).notes (tokenize t).length) ∧
    ∀ (i : Invocation) (r : Request) (e : Settings), i.plan = .scan r →
      i.environment.settings = .ok e → r.source.text i.input = .ok s →
      let c := r.flags.over e
      c.verbose = true →
      (s.WritableAs c.format → ∃ shown, shownCount? c.format i.run.stdout = some shown ∧
        i.run.stderr = r.source.announcement ++ log ++
          (counts s.length (shown + if r.flags.noEof then 1 else 0) foreign.length ++ ['\n']) ++
          strictReport c.strict s) ∧
      (¬ s.WritableAs c.format → ∃ u, (output c s).written = .error u ∧
        i.run.stderr = r.source.announcement ++ log ++
          ("Internal error: ".toList ++ u.text ++ ['\n']) ++ Fault.stepsLine) := by
  intro foreign messages log
  have hm : (trace s).map Event.message = messages := by
    rw [trace_eq, List.map_cons, foreignFrom, List.map_map]
    rfl
  have hl : (trace s).flatMap Event.line = log := by
    have hf : Event.line = fun e => "DEBUG: ".toList ++ e.message ++ ['\n'] := funext line_eq
    simp only [log, ← hm, List.flatMap_map, hf]
  refine ⟨trace_eq s, hm, ?_, ?_⟩
  · rintro t rfl
    exact trace_eq_notes t
  intro i r e hp he ht c hv
  have hs : i.Scans r.source c s := ⟨⟨r.flags, e, hp, he, rfl⟩, ht⟩
  constructor
  · intro hw
    obtain ⟨t, ho⟩ := output_of_writable hw
    have hr : (s.pieces.countP fun p => p.kind = .illegal) = foreign.length :=
      (countP_illegal_pieces 0 s).trans (List.length_map ..)
    have hn : s.pieces.length =
        (shownPieces c s.pieces).length + if r.flags.noEof then 1 else 0 := by
      rw [shownPieces_over he]
      cases r.flags.noEof with
      | true => simp [Raw.pieces]
      | false => rfl
    rw [hs.run_of_output ho]
    refine ⟨_, shownCount?_pieceOutput (mem_pieces_of_mem_shown c s) ho, ?_⟩
    simp only [hv, if_true, account, hl, hr, ← hn, List.append_assoc]
  · intro hw
    obtain ⟨-, u, hu⟩ := written_of_not_writable hw
    refine ⟨u, hu, ?_⟩
    rw [hs.run_of_unwritable hu, hv, ← hl]
    rfl

/-- The end token is not printed and still counted; places are those of characters, not of bytes. -/
theorem account_of_two_foreign :
    let s := Raw.ofText "\u00e9 a#".toList
    let i : Invocation :=
      ⟨Raw.ofStrings ["-ve", "\u00e9 a#", "--no-eof"], {}, [], fun _ => none⟩
    let r : Request := ⟨.expr s, { noEof := true, verbose := some true }⟩
    let messages := ["lexer primed: position=0 read_position=1 char='\u00e9'",
      "illegal character '\u00e9' at offset 0", "illegal character '#' at offset 3"]
    i.plan = .scan r ∧ i.environment.settings = .ok {} ∧ r.source.text i.input = .ok s ∧
    (traceAt .debug s).map Event.message = messages.map String.toList ∧
    ∃ shown, shownCount? .text i.run.stdout = some shown ∧
      i.run.stderr = (messages.flatMap fun m => "DEBUG: ".toList ++ m.toList ++ ['\n']) ++
        (counts 4 (shown + 1) 2 ++ ['\n']) := by
  intro s i r messages
  have hp : i.plan = .scan r := rfl
  have he : i.environment.settings = .ok {} := rfl
  have hs : r.source.text i.input = .ok s := rfl
  obtain ⟨-, hm, -, h⟩ := log_and_summary_account s
  obtain ⟨shown, hn, hr⟩ := (h i r {} hp he hs rfl).1 fun _ => Raw.surrogate_not_mem_ofText _
  have hf : strictReport (r.flags.over {}).strict s = [] := rfl
  refine ⟨hp, he, hs, hm.trans (by decide), shown, hn, hr.trans ?_⟩
  rw [hf, List.append_nil]
  rfl

/-- The records come as ever, and no summary after them. -/
theorem no_account_of_surrogate :
    let s : Raw := [.surrogate ⟨0x4ff⟩]
    let i : Invocation := ⟨[Raw.ofText "-ve".toList, s], {}, [], fun _ => none⟩
    let r : Request := ⟨.expr s, { verbose := some true }⟩
    i.plan = .scan r ∧ i.environment.settings = .ok {} ∧ r.source.text i.input = .ok s ∧
    (r.flags.over {}).verbose = true ∧
    ∀ characters tokens illegal, ¬ counts characters tokens illegal <:+: i.run.stderr := by
  intro s i r
  have hi : i.Scans (.expr s) { verbose := true } s := ⟨⟨_, _, rfl, rfl, rfl⟩, rfl⟩
  refine ⟨rfl, rfl, rfl, rfl, ?_⟩
  intro characters tokens illegal h
  have hs : 'S' ∈ i.run.stderr := h.subset List.mem_cons_self
  rw [hi.run_of_unwritable (written_output_surrogate rfl ⟨0x4ff⟩), trace_eq] at hs
  exact absurd hs (by decide)

end Command
end Lexeme
