import Lexeme.Proofs.Foreign

/-!
The pieces of a raw text. Those of a text are its tokens. In any case what the scan of a text does
is carried from stretch to stretch: every foreign point is an illegal piece of its own and no other
point is one, by `filter_illegal_lexemes`, and the other pieces are tokens that their kinds admit. A
surrogate is scanned as a foreign character is: any such character may stand in its place, which
changes no other piece and no offset, by `placed_standIn`.
-/

namespace Lexeme

/-- The piece that stands for a foreign point. -/
def Piece.ofPoint : Point → Piece
  | .char c => .token (Token.ofForeign c)
  | .surrogate x => .stray x

theorem Piece.text_ofPoint (p : Point) : (ofPoint p).text = [p] := by
  cases p <;> rfl

theorem Piece.ofPoint_injective : Function.Injective ofPoint := by
  intro p q h
  have ht := congrArg text h
  rw [text_ofPoint, text_ofPoint] at ht
  exact List.singleton_inj.1 ht

theorem map_placedFrom (offset : Nat) (fs : List Found) :
    (placedFrom offset fs).map (·.2) = fs.map Found.token := by
  induction fs generalizing offset with
  | nil => rfl
  | cons f fs ih => rw [placedFrom, List.map_cons, List.map_cons, ih]

theorem Piece.map_ofPlaced (offset : Nat) (s : Text) :
    (ofPlaced (placedFrom offset (scan s))).map (·.2) = (lexemes s).map token := by
  rw [lexemes, ← map_placedFrom offset, ofPlaced, List.map_map, List.map_map]
  rfl

theorem Raw.filter_isForeign_ofText (t : Text) :
    (ofText t).filter Point.isForeign = ofText (t.filter isForeign) := by
  have hp : Point.isForeign ∘ Point.char = isForeign := rfl
  rw [ofText, List.filter_map, hp, ofText]

theorem Raw.find?_isForeign_ofText (t : Text) :
    List.find? Point.isForeign (ofText t) = (List.find? isForeign t).map .char := by
  have hp : Point.isForeign ∘ Point.char = isForeign := rfl
  rw [ofText, List.find?_map, hp]

theorem Piece.filter_illegal_text (t : Text) :
    ((lexemes t).map token).filter (fun p => p.kind = .illegal) =
      ((Raw.ofText t).filter Point.isForeign).map ofPoint := by
  have hp : (fun p : Piece => decide (p.kind = .illegal)) ∘ token =
      fun t => decide (t.kind = .illegal) := rfl
  rw [List.filter_map, hp, filter_illegal_lexemes, Raw.filter_isForeign_ofText, Raw.ofText,
    List.map_map, List.map_map]
  rfl

namespace Raw

section Stretches

variable (offset : Nat) (first : Text) (rest : List (Surrogate × Text))

theorem filter_illegal_placedFrom :
    ((placedFrom offset first rest).map (·.2)).filter (fun p => p.kind = .illegal) =
      ((ofStretches first rest).filter Point.isForeign).map Piece.ofPoint := by
  induction rest generalizing offset first with
  | nil => rw [placedFrom, Piece.map_ofPlaced, ofStretches, Piece.filter_illegal_text]
  | cons p rest ih =>
    obtain ⟨x, next⟩ := p
    have hx : (Piece.stray x).kind = .illegal := rfl
    have hf : Point.isForeign (.surrogate x) = true := rfl
    rw [placedFrom, List.map_append, List.map_cons, Piece.map_ofPlaced, List.filter_append,
      Piece.filter_illegal_text, List.filter_cons_of_pos (by simp [hx]), ih, ofStretches,
      List.filter_append, List.filter_cons_of_pos hf, List.map_append, List.map_cons]
    rfl

theorem wellFormed_of_mem_placedFrom {t : Token}
    (h : .token t ∈ (placedFrom offset first rest).map (·.2)) : t.WellFormed := by
  have stretch {s : Text} (ht : Piece.token t ∈ (Lexeme.lexemes s).map Piece.token) :
      t.WellFormed := by
    obtain ⟨u, hu, he⟩ := List.mem_map.1 ht
    obtain rfl := Piece.token.inj he
    exact Lexeme.wellFormed_of_mem_lexemes hu
  induction rest generalizing offset first with
  | nil =>
    rw [placedFrom, Piece.map_ofPlaced] at h
    exact stretch h
  | cons p rest ih =>
    obtain ⟨x, next⟩ := p
    rw [placedFrom, List.map_append, List.map_cons, Piece.map_ofPlaced] at h
    rcases List.mem_append.1 h with h | h
    · exact stretch h
    rcases List.mem_cons.1 h with h | h
    · exact absurd h (by simp)
    · exact ih _ _ h

end Stretches

section Pieces

variable {s : Raw}

theorem filter_illegal_lexemes (s : Raw) :
    s.lexemes.filter (fun p => p.kind = .illegal) =
      (s.filter Point.isForeign).map Piece.ofPoint := by
  rw [lexemes, placed, filter_illegal_placedFrom, ofStretches_stretches]

theorem filter_illegal_pieces (s : Raw) :
    s.pieces.filter (fun p => p.kind = .illegal) =
      (s.filter Point.isForeign).map Piece.ofPoint := by
  rw [pieces, List.filter_append, filter_illegal_lexemes]
  simp [Piece.kind, Token.eof]

theorem find?_illegal_pieces (s : Raw) :
    s.pieces.find? (fun p => p.kind = .illegal) =
      (List.find? Point.isForeign s).map Piece.ofPoint := by
  rw [← List.head?_filter, ← List.head?_filter, filter_illegal_pieces, List.head?_map]

theorem find?_isForeign_of_pieces {u : Raw} (h : s.pieces = u.pieces) :
    List.find? Point.isForeign s = List.find? Point.isForeign u := by
  apply Option.map_injective Piece.ofPoint_injective
  rw [← find?_illegal_pieces, ← find?_illegal_pieces, h]

theorem exists_illegal_iff (s : Raw) :
    (∃ p ∈ s.pieces, p.kind = .illegal) ↔ ∃ p ∈ s, p.isForeign := by
  have h := congrArg Option.isSome s.find?_illegal_pieces
  rw [Option.isSome_map, Bool.eq_iff_iff, List.find?_isSome, List.find?_isSome] at h
  simpa using h

theorem wellFormed_of_mem_lexemes {t : Token} (h : .token t ∈ s.lexemes) : t.WellFormed :=
  wellFormed_of_mem_placedFrom 0 _ _ h

theorem stray_mem_lexemes_iff {x : Surrogate} : .stray x ∈ s.lexemes ↔ .surrogate x ∈ s := by
  have hm : Piece.stray x ∈ s.lexemes ↔
      Piece.stray x ∈ s.lexemes.filter fun p => p.kind = .illegal := by
    simp [Piece.kind]
  rw [hm, filter_illegal_lexemes, List.mem_map]
  constructor
  · intro h
    obtain ⟨p, hp, he⟩ := h
    cases p with
    | char c => exact absurd he (by simp [Piece.ofPoint])
    | surrogate y =>
      obtain rfl := Piece.stray.inj he
      exact (List.mem_filter.1 hp).1
  · intro h
    exact ⟨.surrogate x, List.mem_filter.2 ⟨h, rfl⟩, rfl⟩

theorem lexemes_ofText (t : Text) : (ofText t).lexemes = (Lexeme.lexemes t).map Piece.token := by
  rw [lexemes, placed, stretches_ofText, placedFrom, Piece.map_ofPlaced]

theorem pieces_ofText (t : Text) : (ofText t).pieces = (tokenize t).map Piece.token := by
  rw [pieces, lexemes_ofText, tokenize, List.map_append]
  rfl

theorem lexemes_surrogate (x : Surrogate) : lexemes [.surrogate x] = [.stray x] := by
  have hn : scan [] = [] := scan_of_none (next?_eq_none_iff.2 (List.forall_mem_nil _))
  simp [lexemes, placed, stretches, placedFrom, hn, Lexeme.placedFrom, Piece.ofPlaced]

theorem check_pieces (s : Raw) :
    Piece.check s.pieces = (List.find? Point.isForeign s).elim (.ok s.pieces)
      fun p => .error (Fault.ofPiece (Piece.ofPoint p)) := by
  rw [Piece.check, checkBy, find?_illegal_pieces]
  cases List.find? Point.isForeign s <;> rfl

end Pieces

end Raw

section StandIn

/-- A character in the place of a surrogate. -/
def Point.standIn (c : Char) : Point → Char
  | char d => d
  | surrogate _ => c

def Piece.standIn (c : Char) : Piece → Token
  | token t => t
  | stray _ => Token.ofForeign c

variable {c : Char}

theorem Kind.not_takes_foreign (hc : isForeign c = true) (k : Kind) : ¬ k.Takes c := by
  intro h
  have hk := charClass_of_takes h
  rw [CharClass.of_eq_foreign_iff.2 hc] at hk
  obtain rfl := charClass_eq_foreign_iff.1 hk.symm
  exact h

/-- A foreign character ends what is before it and is a token alone. -/
theorem placedFrom_append_foreign (hc : isForeign c = true) (offset : Nat) (a b : Text) :
    placedFrom offset (scan (a ++ c :: b)) = placedFrom offset (scan a) ++
      (offset + a.length, Token.ofForeign c) :: placedFrom (offset + a.length + 1) (scan b) := by
  induction a using scan.induct generalizing offset with
  | case1 a h =>
    have hn : next? (a ++ c :: b) = some ⟨a, Token.ofForeign c, b⟩ :=
      next?_eq_some_iff.2 ⟨⟨next?_eq_none_iff.1 h, ⟨c, rfl, hc⟩, fun _ _ hk => hk⟩,
        by simp [Token.ofForeign]⟩
    rw [scan_of_none h, scan_of_some hn]
    rfl
  | case2 a f h ih =>
    obtain ⟨hp, hs⟩ := next?_eq_some_iff.1 h
    have hr : f.token.kind.StopsAt (f.rest ++ c :: b) := by
      intro d hd
      cases he : f.rest with
      | nil =>
        obtain rfl : c = d := by simpa [he] using hd
        exact Kind.not_takes_foreign hc _
      | cons e rest =>
        obtain rfl : e = d := by simpa [he] using hd
        exact hp.stops e (by rw [he, List.head?_cons])
    have hn : next? (a ++ c :: b) = some ⟨f.gap, f.token, f.rest ++ c :: b⟩ :=
      next?_eq_some_iff.2 ⟨⟨hp.gap, hp.token, hr⟩, by simp [← hs]⟩
    have hl : offset + f.gap.length + f.token.text.length + f.rest.length = offset + a.length := by
      rw [← hs]
      simp only [List.length_append]
      omega
    rw [scan_of_some h, scan_of_some hn, placedFrom, placedFrom, ih, List.cons_append, hl]

theorem map_standIn_ofPlaced (placed : List (Nat × Token)) :
    (Piece.ofPlaced placed).map (fun p => (p.1, p.2.standIn c)) = placed := by
  rw [Piece.ofPlaced, List.map_map]
  exact List.map_id _

theorem placedFrom_standIn (hc : isForeign c = true) (offset : Nat) (first : Text)
    (rest : List (Surrogate × Text)) :
    placedFrom offset (scan ((Raw.ofStretches first rest).map (Point.standIn c))) =
      (Raw.placedFrom offset first rest).map fun p => (p.1, p.2.standIn c) := by
  have ht (t : Text) : (Raw.ofText t).map (Point.standIn c) = t := by
    rw [Raw.ofText, List.map_map]
    exact List.map_id t
  induction rest generalizing offset first with
  | nil => rw [Raw.ofStretches, ht, Raw.placedFrom, map_standIn_ofPlaced]
  | cons p rest ih =>
    obtain ⟨x, next⟩ := p
    rw [Raw.ofStretches, List.map_append, List.map_cons, ht, Point.standIn,
      placedFrom_append_foreign hc, ih, Raw.placedFrom, List.map_append, List.map_cons,
      map_standIn_ofPlaced]
    rfl

theorem placed_standIn (hc : isForeign c = true) (s : Raw) :
    placed (s.map (Point.standIn c)) = s.placed.map fun p => (p.1, p.2.standIn c) := by
  have h := placedFrom_standIn hc 0 s.stretches.1 s.stretches.2
  rwa [Raw.ofStretches_stretches] at h

end StandIn

end Lexeme
