import Lexeme.Json.Read
import Lexeme.Token.Piece

/-!
Tokens rendered as JSON are read back as they were, whatever their texts hold. All that matters of
the writer is that it spells each character in a way that a reader understands, wherever it stands
in a string; `spells_escape` says so of the escapes in use. Spellings put one after another are read
as a string, and strings and punctuation as symbols, from which the machine builds one object for
each token. The main statement is `read_render_json`; `read?_render_pieces` says the same of a scan
with lone surrogates in it.

Writers differ in the delete character: it is printed raw by some and escaped by others. Both
spellings are understood, so the statement is made for both.
-/

namespace Lexeme.Json

/-- Printable ASCII, the delete character and line feeds. -/
def Plain (s : Text) : Prop := ∀ c ∈ s, c = '\n' ∨ (0x20 ≤ c.toNat ∧ c.toNat ≤ 0x7f)

instance (s : Text) : Decidable (Plain s) := List.decidableBAll _ s

/-- A reader makes one character of a text, whatever follows it inside the string. -/
structure Spells (w : Text) (c : Char) : Prop where
  plain : Plain w
  read : ∃ ns, (∀ rest, codes? (w ++ rest) = (codes? rest).map fun p => (ns ++ p.1, p.2)) ∧
    ∀ ms, joined (ns ++ ms) = .char c :: joined ms

/-- The escapes in use, but for the delete character, which is written raw. -/
def escapeButDelete (c : Char) : Text := if c = '\x7f' then [c] else escape c

def quotedBy (spell : Char → Text) (s : Text) : Text := '\x22' :: s.flatMap spell ++ ['\x22']

def objectBy (spell : Char → Text) (t : Token) : Text :=
  object (quotedBy spell t.kind.name) (quotedBy spell t.text)

/-- The rendering by a writer that has its own way to spell characters. -/
def renderBy (spell : Char → Text) (ts : List Token) : Text := array (ts.map (objectBy spell))

/-- The value that an object is written as, given the two strings in it. -/
def ofStrings (m : Raw × Raw) : Value :=
  .object [(Raw.ofText "kind".toList, .string m.1), (Raw.ofText "text".toList, .string m.2)]

/-- The value that a piece is written as. -/
def ofPiece (p : Piece) : Value := ofStrings (Raw.ofText p.kind.name, p.text)

def ofPieces (ps : List Piece) : Value := .array (ps.map ofPiece)

/-- The value that a token is written as. -/
def ofToken (t : Token) : Value := ofStrings (Raw.ofText t.kind.name, Raw.ofText t.text)

def ofTokens (ts : List Token) : Value := .array (ts.map ofToken)

theorem renderBy_escape (ts : List Token) : renderBy escape ts = render .json ts := rfl

section Spelling

theorem not_surrogate (c : Char) : isHigh c.toNat = false ∧ isLow c.toNat = false := by
  have h : c.toNat < 0xd800 ∨ (0xdfff < c.toNat ∧ c.toNat < 0x110000) := c.valid
  simp only [isHigh, isLow, Bool.and_eq_false_iff, decide_eq_false_iff_not]
  omega

theorem point_char (c : Char) : point c.toNat = .char c := by
  obtain ⟨hh, hl⟩ := not_surrogate c
  simp only [point, hh, hl, Bool.or_self, Bool.false_eq_true, if_false, Char.ofNat_toNat]

theorem point_surrogate (x : Surrogate) : point x.number = .surrogate x := by
  obtain ⟨⟨n, hn⟩⟩ := x
  have hs : (isHigh (0xd800 + n) || isLow (0xd800 + n)) = true := by
    simp only [isHigh, isLow, Bool.or_eq_true, Bool.and_eq_true, decide_eq_true_eq]
    omega
  simp only [point, Surrogate.number, hs, if_true, Nat.add_sub_cancel_left, Fin.ofNat,
    Nat.mod_eq_of_lt hn]

theorem joined_char (c : Char) (ms : List Nat) :
    joined (c.toNat :: ms) = .char c :: joined ms := by
  have hp := point_char c
  cases ms with
  | nil => rw [joined, joined, hp]
  | cons m ms =>
    rw [joined, (not_surrogate c).1, Bool.false_and, if_neg Bool.false_ne_true, hp]

theorem joined_pair {c : Char} (h : 0x10000 ≤ c.toNat) (ms : List Nat) :
    joined ([0xd800 + (c.toNat - 0x10000) / 0x400, 0xdc00 + (c.toNat - 0x10000) % 0x400] ++ ms) =
      .char c :: joined ms := by
  have hb : c.toNat < 0xd800 ∨ (0xdfff < c.toNat ∧ c.toNat < 0x110000) := c.valid
  have hh : isHigh (0xd800 + (c.toNat - 0x10000) / 0x400) = true := by
    simp only [isHigh, Bool.and_eq_true, decide_eq_true_eq]
    omega
  have hl : isLow (0xdc00 + (c.toNat - 0x10000) % 0x400) = true := by
    simp only [isLow, Bool.and_eq_true, decide_eq_true_eq]
    omega
  have hn : 0x10000 + (0xd800 + (c.toNat - 0x10000) / 0x400 - 0xd800) * 0x400 +
      (0xdc00 + (c.toNat - 0x10000) % 0x400 - 0xdc00) = c.toNat := by omega
  rw [List.cons_append, List.singleton_append, joined, hh, hl, Bool.and_self, if_pos rfl, hn,
    Char.ofNat_toNat]

theorem codes?_unit (n : Nat) (hn : n < 0x10000) (rest : Text) :
    codes? (unit n ++ rest) = (codes? rest).map fun p => (n :: p.1, p.2) := by
  obtain ⟨a, b, c, d, hd⟩ : ∃ a b c d, Text.Hex.fixed 4 n = [a, b, c, d] := ⟨_, _, _, _, rfl⟩
  have hv : Text.Hex.value? [a, b, c, d] = some n := by
    rw [← hd, Text.Hex.value?_fixed, Nat.mod_eq_of_lt hn]
  simp only [unit, hd, List.cons_append, List.nil_append, codes?, hv]
  cases codes? rest <;> rfl

theorem plain_unit (n : Nat) : Plain (unit n) := by
  intro c hc
  rcases List.mem_cons.1 hc with rfl | hc
  · right
    decide
  rcases List.mem_cons.1 hc with rfl | hc
  · right
    decide
  · obtain ⟨d, hd, rfl⟩ := Text.Hex.exists_of_mem_fixed hc
    have table : ∀ d < 16, 0x20 ≤ (Nat.digitChar d).toNat ∧ (Nat.digitChar d).toNat ≤ 0x7f := by
      decide
    right
    exact table d hd

theorem spells_raw {c : Char} (h : 0x20 ≤ c.toNat ∧ c.toNat ≤ 0x7f) (hq : c ≠ '\x22')
    (hb : c ≠ '\\') : Spells [c] c where
  plain := by
    intro d hd
    rw [List.mem_singleton.1 hd]
    exact .inr h
  read := by
    refine ⟨[c.toNat], ?_, joined_char c⟩
    intro rest
    rw [List.singleton_append, codes?]
    · rw [if_pos h.1]
      cases codes? rest <;> rfl
    · exact hq
    · intro a b d e r hc
      exact absurd hc hb
    · intro e r hc
      exact absurd hc hb

theorem spells_named {e c : Char} (h : named? e = some c.toNat) (hu : e ≠ 'u')
    (he : 0x20 ≤ e.toNat ∧ e.toNat ≤ 0x7f) : Spells ['\\', e] c where
  plain := by
    intro d hd
    right
    rcases List.mem_cons.1 hd with rfl | hd
    · decide
    · rw [List.mem_singleton.1 hd]
      exact he
  read := by
    refine ⟨[c.toNat], ?_, joined_char c⟩
    intro rest
    rw [List.cons_append, List.singleton_append, codes?]
    · rw [h]
      cases codes? rest <;> rfl
    · intro a b d g r hc
      exact absurd hc hu

theorem spells_units (c : Char) : Spells (units c.toNat) c := by
  have hb : c.toNat < 0xd800 ∨ (0xdfff < c.toNat ∧ c.toNat < 0x110000) := c.valid
  rw [units]
  split
  · next h => exact ⟨plain_unit _, [c.toNat], codes?_unit c.toNat h, joined_char c⟩
  · next h =>
    refine ⟨List.forall_mem_append.2 ⟨plain_unit _, plain_unit _⟩, _, ?_,
      joined_pair (Nat.le_of_not_lt h)⟩
    intro rest
    rw [List.append_assoc, codes?_unit _ (by omega), codes?_unit _ (by omega), Option.map_map]
    rfl

/-- The characters that have a short escape. -/
def shortened : List Char := ['\x22', '\\', '\n', '\r', '\t', '\x08', '\x0c']

theorem escape_of_not_shortened {c : Char} (h : c ∉ shortened) :
    escape c = if 0x20 ≤ c.toNat ∧ c.toNat ≤ 0x7e then [c] else units c.toNat := by
  simp only [shortened, List.mem_cons, List.not_mem_nil, not_or] at h
  simp only [escape, h, if_false]

theorem spells_escape (c : Char) : Spells (escape c) c := by
  by_cases hs : c ∈ shortened
  · have table : shortened.all fun c => ['\x22', '\\', 'n', 'r', 't', 'b', 'f'].any fun e =>
        escape c = ['\\', e] ∧ named? e = some c.toNat ∧ e ≠ 'u' ∧
          0x20 ≤ e.toNat ∧ e.toNat ≤ 0x7f := by decide
    obtain ⟨e, -, h⟩ := List.any_eq_true.1 (List.all_eq_true.1 table c hs)
    obtain ⟨he, hn, hu, hp⟩ := of_decide_eq_true h
    rw [he]
    exact spells_named hn hu hp
  · rw [escape_of_not_shortened hs]
    split
    · next h =>
      have hq : c ≠ '\x22' := fun hc => hs (hc ▸ by decide)
      have hb : c ≠ '\\' := fun hc => hs (hc ▸ by decide)
      exact spells_raw ⟨h.1, by omega⟩ hq hb
    · exact spells_units c

theorem spells_escapeButDelete (c : Char) : Spells (escapeButDelete c) c := by
  rw [escapeButDelete]
  split
  · next h => exact h ▸ spells_raw (by decide) (by decide) (by decide)
  · exact spells_escape c

end Spelling

section Symbols

variable {spell : Char → Text}

theorem codes?_flatMap (h : ∀ c, Spells (spell c) c) (s rest : Text) :
    ∃ ns, codes? (s.flatMap spell ++ '\x22' :: rest) = some (ns, rest) ∧
      joined ns = Raw.ofText s := by
  induction s with
  | nil => exact ⟨[], by simp [codes?], rfl⟩
  | cons c s ih =>
    obtain ⟨ns, hc, hj⟩ := ih
    obtain ⟨ms, hr, hm⟩ := (h c).read
    refine ⟨ms ++ ns, ?_, ?_⟩
    · rw [List.flatMap_cons, List.append_assoc, hr, hc]
      rfl
    · rw [hm, hj]
      rfl

/-- A text is cut into symbols, whatever follows it. -/
def Cuts (w : Text) (xs : List Symbol) : Prop :=
  ∀ rest, symbols? (w ++ rest) = (symbols? rest).map (xs ++ ·)

theorem Cuts.append {w v : Text} {xs ys : List Symbol} (hw : Cuts w xs) (hv : Cuts v ys) :
    Cuts (w ++ v) (xs ++ ys) := by
  intro rest
  rw [List.append_assoc, hw, hv, Option.map_map]
  apply congrFun
  apply congrArg
  funext zs
  exact (List.append_assoc xs ys zs).symm

theorem cuts_white {w : Text} (h : w.all isWhite = true) : Cuts w [] := by
  intro rest
  induction w with
  | nil => simp
  | cons c w ih =>
    rw [List.all_cons, Bool.and_eq_true] at h
    rw [List.cons_append, symbols?_white h.1, ih h.2]

theorem cuts_mark {c : Char} {x : Symbol} (hc : isWhite c = false)
    (h : ∀ rest, symbol? c rest = some (x, rest)) : Cuts [c] [x] :=
  fun rest => symbols?_symbol hc (h rest)

/-- What stands between quotes is read as a string, whatever follows them. -/
theorem cuts_string {w : Text} {s : Raw}
    (h : ∀ rest, ∃ ns, codes? (w ++ '\x22' :: rest) = some (ns, rest) ∧ joined ns = s) :
    Cuts ('\x22' :: w ++ ['\x22']) [.string s] := by
  intro rest
  obtain ⟨ns, hc, hj⟩ := h rest
  have hs : symbol? '\x22' (w ++ '\x22' :: rest) = some (.string s, rest) := by
    simp [symbol?, hc, hj]
  rw [List.cons_append, List.cons_append, List.append_assoc]
  exact symbols?_symbol (by decide) hs

theorem cuts_quotedBy (h : ∀ c, Spells (spell c) c) (s : Text) :
    Cuts (quotedBy spell s) [.string (Raw.ofText s)] :=
  cuts_string (codes?_flatMap h s)

theorem cuts_key (k : Text) :
    Cuts (quotedBy escape k ++ [':', ' ']) [.string (Raw.ofText k), .colon] :=
  (cuts_quotedBy spells_escape k).append
    ((cuts_mark (c := ':') (by decide) fun _ => rfl).append (cuts_white (w := [' ']) (by decide)))

def objectSymbols (m : Raw × Raw) : List Symbol :=
  [.openObject, .string (Raw.ofText "kind".toList), .colon, .string m.1, .comma,
    .string (Raw.ofText "text".toList), .colon, .string m.2, .closeObject]

theorem cuts_object {kind text : Text} {k s : Raw} (hk : Cuts kind [.string k])
    (hs : Cuts text [.string s]) : Cuts (object kind text) (objectSymbols (k, s)) := by
  have first : Cuts "  \x7b\n    \"kind\": ".toList
      [.openObject, .string (Raw.ofText "kind".toList), .colon] := by
    have he : "  \x7b\n    \"kind\": ".toList =
        [' ', ' '] ++ (['\x7b'] ++ ("\n    ".toList ++ (quotedBy escape "kind".toList ++ [':', ' ']))) := by
      decide
    rw [he]
    exact (cuts_white (by decide)).append ((cuts_mark (by decide) fun _ => rfl).append
      ((cuts_white (by decide)).append (cuts_key _)))
  have second : Cuts ",\n    \"text\": ".toList
      [.comma, .string (Raw.ofText "text".toList), .colon] := by
    have he : ",\n    \"text\": ".toList =
        [','] ++ ("\n    ".toList ++ (quotedBy escape "text".toList ++ [':', ' '])) := by
      decide
    rw [he]
    exact (cuts_mark (by decide) fun _ => rfl).append
      ((cuts_white (by decide)).append (cuts_key _))
  have last : Cuts "\n  \x7d".toList [.closeObject] :=
    (cuts_white (w := "\n  ".toList) (by decide)).append
      (cuts_mark (c := '\x7d') (by decide) fun _ => rfl)
  exact (((first.append hk).append second).append hs).append last

section Array

variable {α : Type} {write : α → Text} {strings : α → Raw × Raw}

theorem cuts_joined (h : ∀ a, Cuts (write a) (objectSymbols (strings a))) (a : α) (as : List α) :
    Cuts (Text.joined ",\n".toList ((a :: as).map write))
      (objectSymbols (strings a) ++ as.flatMap fun b => .comma :: objectSymbols (strings b)) := by
  induction as generalizing a with
  | nil =>
    simp only [Text.joined, List.map_cons, List.map_nil, List.intercalate_singleton,
      List.flatMap_nil, List.append_nil]
    exact h a
  | cons b bs ih =>
    have hc : Cuts ",\n".toList [.comma] :=
      (cuts_mark (c := ',') (by decide) fun _ => rfl).append (cuts_white (w := ['\n']) (by decide))
    have hj := ((h a).append hc).append (ih b)
    simp only [Text.joined, List.map_cons, List.intercalate_cons_cons, List.flatMap_cons,
      List.append_assoc, List.cons_append, List.nil_append] at hj ⊢
    exact hj

/-- The symbols of an array of objects with two strings in each. -/
def arraySymbols : List (Raw × Raw) → List Symbol
  | [] => [.openArray, .closeArray]
  | m :: ms =>
    .openArray :: (objectSymbols m ++
      ((ms.flatMap fun n => .comma :: objectSymbols n) ++ [.closeArray]))

theorem cuts_array (h : ∀ a, Cuts (write a) (objectSymbols (strings a))) (as : List α) :
    Cuts (array (as.map write)) (arraySymbols (as.map strings)) := by
  have ho : Cuts ['['] [.openArray] := cuts_mark (by decide) fun _ => rfl
  have hc : Cuts [']'] [.closeArray] := cuts_mark (by decide) fun _ => rfl
  have hn : Cuts ['\n'] [] := cuts_white (by decide)
  cases as with
  | nil => exact ho.append hc
  | cons a as =>
    have hj := ((ho.append hn).append (cuts_joined h a as)).append (hn.append hc)
    have hs : arraySymbols ((a :: as).map strings) = .openArray :: (objectSymbols (strings a) ++
        ((as.flatMap fun b => .comma :: objectSymbols (strings b)) ++ [.closeArray])) := by
      rw [List.map_cons, arraySymbols, List.flatMap_map]
    simp only [List.append_assoc, List.cons_append, List.nil_append] at hj
    rw [hs]
    exact hj

end Array

end Symbols

section Machine

theorem run_cons (s : State) (x : Symbol) (xs : List Symbol) :
    s.run (x :: xs) = (s.step x).bind fun s => s.run xs := rfl

theorem run_object (m : Raw × Raw) (inside : List Frame) (xs : List Symbol) :
    (State.value inside).run (objectSymbols m ++ xs) =
      (State.afterValue (ofStrings m) inside).run xs := rfl

theorem run_items (items : List Value) (v : Value) (ms : List (Raw × Raw)) :
    (State.afterValue v [.array items]).run
      ((ms.flatMap fun n => .comma :: objectSymbols n) ++ [.closeArray]) =
      some (.afterValue (.array (items ++ v :: ms.map ofStrings)) []) := by
  induction ms generalizing items v with
  | nil => rfl
  | cons n ns ih =>
    rw [List.flatMap_cons, List.append_assoc, List.cons_append, run_cons]
    have hi := ih (items ++ [v]) (ofStrings n)
    rw [List.append_assoc] at hi
    exact (run_object n [.array (items ++ [v])] _).trans hi

theorem run_arraySymbols (ms : List (Raw × Raw)) :
    (State.value []).run (arraySymbols ms) =
      some (.afterValue (.array (ms.map ofStrings)) []) := by
  cases ms with
  | nil => rfl
  | cons m ms => exact (run_object m [.array []] _).trans (run_items [] (ofStrings m) ms)

end Machine

section Reading

variable {α : Type} {write : α → Text} {strings : α → Raw × Raw}

/-- An array is read as the values of its objects, and a line end after it does not matter. -/
theorem read?_array (h : ∀ a, Cuts (write a) (objectSymbols (strings a))) (as : List α) {w : Text}
    (hw : w.all isWhite = true) :
    read? (array (as.map write) ++ w) = some (.array (as.map fun a => ofStrings (strings a))) := by
  have hs := ((cuts_array h as).append (cuts_white hw)) []
  rw [List.append_nil, List.append_nil, symbols?, Option.map_some, List.append_nil] at hs
  rw [read?, hs]
  simp only [Option.bind_eq_bind, Option.bind_some, run_arraySymbols, State.whole?, List.map_map,
    Function.comp_def]

theorem cuts_objectBy {spell : Char → Text} (h : ∀ c, Spells (spell c) c) (t : Token) :
    Cuts (objectBy spell t) (objectSymbols (Raw.ofText t.kind.name, Raw.ofText t.text)) :=
  cuts_object (cuts_quotedBy h t.kind.name) (cuts_quotedBy h t.text)

theorem cuts_quotedStray (x : Surrogate) :
    Cuts (quotedRaw [.surrogate x]) [.string [.surrogate x]] := by
  have hn : x.number < 0x10000 := by
    have := x.place.isLt
    simp only [Surrogate.number]
    omega
  refine cuts_string fun rest => ⟨[x.number], ?_, ?_⟩
  · rw [List.flatMap_singleton]
    exact (codes?_unit x.number hn _).trans (by simp [codes?])
  · rw [joined, point_surrogate]

theorem quotedRaw_ofText (s : Text) : quotedRaw (Raw.ofText s) = quotedBy escape s := by
  rw [quotedRaw, Raw.ofText, List.flatMap_map]
  rfl

theorem cuts_piece (p : Piece) :
    Cuts p.object (objectSymbols (Raw.ofText p.kind.name, p.text)) := by
  apply cuts_object (cuts_quotedBy spells_escape p.kind.name)
  cases p with
  | token t =>
    rw [Piece.text, quotedRaw_ofText]
    exact cuts_quotedBy spells_escape t.text
  | stray x => exact cuts_quotedStray x

/-- A scan rendered as JSON, surrogates and all, and ended by a line end. -/
theorem read?_render_pieces (ps : List Piece) :
    read? (array (ps.map Piece.object) ++ ['\n']) = some (ofPieces ps) :=
  read?_array cuts_piece ps (by decide)

end Reading

section Plain

variable {spell : Char → Text}

theorem Plain.append {s t : Text} (hs : Plain s) (ht : Plain t) : Plain (s ++ t) :=
  List.forall_mem_append.2 ⟨hs, ht⟩

theorem Plain.joined {separator : Text} {parts : List Text} (hs : Plain separator)
    (hp : ∀ p ∈ parts, Plain p) : Plain (Text.joined separator parts) := by
  induction parts with
  | nil => exact List.forall_mem_nil _
  | cons p ps ih =>
    obtain ⟨hf, hps⟩ := List.forall_mem_cons.1 hp
    cases ps with
    | nil =>
      rw [Text.joined, List.intercalate_singleton]
      exact hf
    | cons q ps =>
      rw [Text.joined, List.intercalate_cons_cons]
      exact (hf.append hs).append (ih hps)

theorem plain_quotedBy (h : ∀ c, Spells (spell c) c) (s : Text) : Plain (quotedBy spell s) := by
  have hb : Plain (s.flatMap spell) := by
    intro d hd
    obtain ⟨c, -, hc⟩ := List.mem_flatMap.1 hd
    exact (h c).plain d hc
  have hq : Plain ['\x22'] := by decide
  exact (hq.append hb).append hq

theorem plain_object {kind text : Text} (hk : Plain kind) (ht : Plain text) :
    Plain (object kind text) := by
  have hf : Plain "  \x7b\n    \"kind\": ".toList := by decide
  have hs : Plain ",\n    \"text\": ".toList := by decide
  have he : Plain "\n  \x7d".toList := by decide
  exact (((hf.append hk).append hs).append ht).append he

theorem plain_array {objects : List Text} (h : ∀ o ∈ objects, Plain o) : Plain (array objects) := by
  have hl : Plain "[\n".toList := by decide
  have hs : Plain ",\n".toList := by decide
  have hr : Plain "\n]".toList := by decide
  cases objects with
  | nil =>
    have hn : Plain "[]".toList := by decide
    exact hn
  | cons o os => exact (hl.append (hs.joined h)).append hr

theorem plain_renderBy (h : ∀ c, Spells (spell c) c) (ts : List Token) :
    Plain (renderBy spell ts) :=
  plain_array <| List.forall_mem_map.2 fun _ _ =>
    plain_object (plain_quotedBy h _) (plain_quotedBy h _)

theorem plain_piece (p : Piece) : Plain p.object := by
  apply plain_object (plain_quotedBy spells_escape p.kind.name)
  cases p with
  | token t =>
    rw [Piece.text, quotedRaw_ofText]
    exact plain_quotedBy spells_escape t.text
  | stray x =>
    have hq : Plain ['\x22'] := by decide
    exact (hq.append (List.forall_mem_append.2 ⟨plain_unit _, List.forall_mem_nil _⟩)).append hq

end Plain

theorem read_render_json (ts : List Token) :
    (read? (render .json ts) = some (ofTokens ts) ∧ Plain (render .json ts)) ∧
    (read? (renderBy escapeButDelete ts) = some (ofTokens ts) ∧
      Plain (renderBy escapeButDelete ts)) := by
  have read {spell : Char → Text} (h : ∀ c, Spells (spell c) c) :
      read? (renderBy spell ts) = some (ofTokens ts) := by
    have hr := read?_array (cuts_objectBy h) ts (w := []) rfl
    rwa [List.append_nil] at hr
  have he := spells_escape
  have hd := spells_escapeButDelete
  rw [← renderBy_escape]
  exact ⟨⟨read he, plain_renderBy he ts⟩, read hd, plain_renderBy hd ts⟩

end Lexeme.Json
