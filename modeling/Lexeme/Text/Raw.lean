import Lexeme.Text.ControlSequence
import Lexeme.Text.Quoted

/-!
Raw text, in which lone surrogates may stand among the characters. The arguments of a program and
the variables of its environment are raw: a byte that is part of no character comes in as a surrogate
of its own. The characters of a raw text stand in stretches between its surrogates, and what is done
to texts is done to each stretch. A strict writer gives up at the first surrogate; a forgiving one
writes its number instead.
-/

namespace Lexeme

/-- A code point from U+D800 to U+DFFF, by its place among them. -/
structure Surrogate where
  place : Fin 0x800
  deriving DecidableEq, Repr

def Surrogate.number (x : Surrogate) : Nat := 0xd800 + x.place

inductive Point
  | char (c : Char)
  | surrogate (x : Surrogate)
  deriving DecidableEq, Repr

namespace Point

def number : Point → Nat
  | char c => c.toNat
  | surrogate x => x.number

def char? : Point → Option Char
  | char c => some c
  | surrogate _ => none

def isSurrogate : Point → Bool
  | char _ => false
  | surrogate _ => true

/-- A point inside of quotes; no surrogate is printable. -/
def quoted (quote : Char) : Point → Text
  | char c => Text.Quoted.escape quote c
  | surrogate x => Text.Quoted.numeric x.number

def escaped : Point → Text
  | char c => [c]
  | surrogate x => Text.Quoted.numeric x.number

end Point

abbrev Raw := List Point

namespace Raw

def ofText (s : Text) : Raw := s.map .char

def ofStrings (words : List String) : List Raw := words.map fun w => ofText w.toList

def quoted (s : Raw) : Text :=
  let quote := Text.Quoted.quoteFor (s.filterMap Point.char?)
  quote :: s.flatMap (Point.quoted quote) ++ [quote]

/-- A raw text as a forgiving writer writes it. -/
def escaped (s : Raw) : Text := s.flatMap Point.escaped

/-- The characters before the first surrogate, and each surrogate with the characters after it. -/
def stretches : Raw → Text × List (Surrogate × Text)
  | [] => ([], [])
  | .char c :: s =>
    let after := stretches s
    (c :: after.1, after.2)
  | .surrogate x :: s =>
    let after := stretches s
    ([], (x, after.1) :: after.2)

def ofStretches (first : Text) : List (Surrogate × Text) → Raw
  | [] => ofText first
  | (x, next) :: rest => ofText first ++ .surrogate x :: ofStretches next rest

def onStretches (f : Text → Text) (s : Raw) : Raw :=
  ofStretches (f s.stretches.1) (s.stretches.2.map fun p => (p.1, f p.2))

/-- No control sequence reaches over a surrogate. -/
def withoutControlSequences (s : Raw) : Raw := s.onStretches Text.withoutControlSequences

/-- A raw text as a line of output, which carries no control sequences. -/
def printed (s : Raw) : Raw := s.withoutControlSequences ++ [.char '\n']

/-- What a strict writer gives up: the position of the first surrogate, the surrogate, and how many
more of them come right after it. -/
structure Unwritable where
  position : Nat
  first : Surrogate
  more : Nat
  deriving DecidableEq

/-- The text that a strict writer writes. -/
def written : Raw → Except Unwritable Text
  | [] => .ok []
  | .char c :: s =>
    match written s with
    | .ok t => .ok (c :: t)
    | .error u => .error { u with position := u.position + 1 }
  | .surrogate x :: s => .error ⟨0, x, (s.takeWhile Point.isSurrogate).length⟩

def text? (s : Raw) : Option Text := s.written.toOption

/-- One surrogate is named by its number, several by the positions they take up. -/
def Unwritable.text (u : Unwritable) : Text :=
  let points :=
    if u.more = 0 then
      "character '".toList ++ Text.Quoted.numeric u.first.number ++ "' in position ".toList ++
        Text.decimal u.position
    else
      "characters in position ".toList ++ Text.decimal u.position ++ '-' ::
        Text.decimal (u.position + u.more)
  "'utf-8' codec can't encode ".toList ++ points ++ ": surrogates not allowed".toList

section Texts

variable {s : Raw} {t : Text}

theorem ofText_injective {t u : Text} (h : ofText t = ofText u) : t = u :=
  (List.map_inj_right fun _ _ => Point.char.inj).1 h

@[simp]
theorem char_mem_ofText {c : Char} : .char c ∈ ofText t ↔ c ∈ t := by
  simp [ofText]

@[simp]
theorem surrogate_not_mem_ofText (t : Text) (x : Surrogate) : .surrogate x ∉ ofText t := by
  simp [ofText]

theorem stretches_ofText (t : Text) : (ofText t).stretches = (t, []) := by
  induction t with
  | nil => rfl
  | cons c t ih =>
    have hs : (ofText (c :: t)).stretches =
        (c :: (ofText t).stretches.1, (ofText t).stretches.2) := rfl
    rw [hs, ih]

theorem ofStretches_stretches (s : Raw) : ofStretches s.stretches.1 s.stretches.2 = s := by
  induction s with
  | nil => rfl
  | cons p s ih =>
    cases p with
    | char c =>
      have hc (first : Text) (rest : List (Surrogate × Text)) :
          ofStretches (c :: first) rest = .char c :: ofStretches first rest := by
        cases rest <;> rfl
      exact (hc _ _).trans (congrArg (.char c :: ·) ih)
    | surrogate x => exact congrArg (.surrogate x :: ·) ih

theorem written_eq_ok_iff : s.written = .ok t ↔ s = ofText t := by
  induction s generalizing t with
  | nil => cases t <;> simp [written, ofText]
  | cons p s ih =>
    cases p with
    | char c =>
      cases t with
      | nil => cases h : written s <;> simp [written, ofText, h]
      | cons d t =>
        have ih := ih (t := t)
        cases h : written s with
        | ok u => simp_all [written, ofText]
        | error u => simp_all [written, ofText]
    | surrogate x => cases t <;> simp [written, ofText]

/-- What is given up is not changed by a text that comes after it. -/
theorem written_append_ofText {u : Unwritable} (h : s.written = .error u) (t : Text) :
    (s ++ ofText t).written = .error u := by
  have ht : (ofText t).takeWhile Point.isSurrogate = [] := by cases t <;> rfl
  induction s generalizing u with
  | nil => exact absurd h (by simp [written])
  | cons p s ih =>
    cases p with
    | char c =>
      cases hs : written s with
      | ok v => exact absurd h (by simp [written, hs])
      | error v => simpa [written, hs, ih hs] using h
    | surrogate x =>
      rw [List.cons_append, written, List.takeWhile_append, ht]
      rw [written] at h
      split
      · next hl => simpa [hl] using h
      · exact h

theorem text?_eq_some_iff : s.text? = some t ↔ s = ofText t := by
  rw [← written_eq_ok_iff, text?]
  cases s.written <;> simp [Except.toOption]

@[simp]
theorem text?_ofText (t : Text) : (ofText t).text? = some t := text?_eq_some_iff.2 rfl

theorem onStretches_ofText (f : Text → Text) (t : Text) :
    (ofText t).onStretches f = ofText (f t) := by
  rw [onStretches, stretches_ofText]
  rfl

theorem stretches_ofText_append (t : Text) (s : Raw) :
    (ofText t ++ s).stretches = (t ++ s.stretches.1, s.stretches.2) := by
  induction t with
  | nil => rfl
  | cons c t ih =>
    have hs : (ofText (c :: t) ++ s).stretches =
        (c :: (ofText t ++ s).stretches.1, (ofText t ++ s).stretches.2) := rfl
    rw [hs, ih, List.cons_append]

theorem onStretches_surrogate (f : Text → Text) (t : Text) (x : Surrogate) (s : Raw) :
    (ofText t ++ .surrogate x :: s).onStretches f =
      ofText (f t) ++ .surrogate x :: s.onStretches f := by
  rw [onStretches, stretches_ofText_append, stretches, List.append_nil]
  rfl

/-- The induction over the stretches of a raw text, from its end. -/
theorem stretching {P : Raw → Prop} (text : ∀ t, P (ofText t))
    (surrogate : ∀ t x s, P s → P (ofText t ++ .surrogate x :: s)) (s : Raw) : P s := by
  have h (rest : List (Surrogate × Text)) (first : Text) : P (ofStretches first rest) := by
    induction rest generalizing first with
    | nil => exact text first
    | cons p rest ih => exact surrogate first p.1 _ (ih p.2)
  rw [← ofStretches_stretches s]
  exact h _ _

section Stretches

variable {f : Text → Text}

theorem onStretches_ofText_append (h : ∀ u, f (t ++ u) = t ++ f u) (s : Raw) :
    (ofText t ++ s).onStretches f = ofText t ++ s.onStretches f := by
  have hs (first : Text) (rest : List (Surrogate × Text)) :
      ofStretches (t ++ first) rest = ofText t ++ ofStretches first rest := by
    cases rest <;> simp [ofStretches, ofText]
  rw [onStretches, stretches_ofText_append, h, hs, onStretches]

theorem onStretches_append_ofText (h : ∀ u, f (u ++ t) = f u ++ t) (s : Raw) :
    (s ++ ofText t).onStretches f = s.onStretches f ++ ofText t := by
  induction s using stretching with
  | text u =>
    have ha (v : Text) : ofText (v ++ t) = ofText v ++ ofText t := List.map_append ..
    rw [← ha, onStretches_ofText, onStretches_ofText, h, ha]
  | surrogate u x s ih =>
    rw [List.append_assoc, List.cons_append, onStretches_surrogate, onStretches_surrogate, ih,
      List.append_assoc, List.cons_append]

theorem surrogate_mem_onStretches {x : Surrogate} :
    .surrogate x ∈ s.onStretches f ↔ .surrogate x ∈ s := by
  induction s using stretching with
  | text t => simp [onStretches_ofText]
  | surrogate t y s ih => simp [onStretches_surrogate, ih]

theorem char_mem_onStretches {c : Char} (h : ∀ t, c ∈ f t ↔ c ∈ t) :
    .char c ∈ s.onStretches f ↔ .char c ∈ s := by
  induction s using stretching with
  | text t => simp [onStretches_ofText, h]
  | surrogate t x s ih => simp [onStretches_surrogate, h, ih]

/-- What changes no text that stands in a raw text does not change the raw text. -/
theorem onStretches_eq_self (h : ∀ t, ofText t <:+: s → f t = t) : s.onStretches f = s := by
  induction s using stretching with
  | text t => rw [onStretches_ofText, h t (List.infix_refl _)]
  | surrogate t x s ih =>
    have ht : f t = t := h t (List.prefix_append _ _).isInfix
    have hs : s <:+: ofText t ++ .surrogate x :: s :=
      ((List.suffix_cons _ _).trans (List.suffix_append _ _)).isInfix
    rw [onStretches_surrogate, ht, ih fun u hu => h u (hu.trans hs)]

end Stretches

theorem printed_ofText (t : Text) : (ofText t).printed = ofText t.printed := by
  rw [printed, withoutControlSequences, onStretches_ofText, Text.printed, ofText, ofText,
    List.map_append]
  rfl

theorem escaped_ofText (t : Text) : (ofText t).escaped = t := by
  rw [escaped, ofText, List.flatMap_map]
  exact List.flatMap_singleton' t

theorem escaped_append (s u : Raw) : (s ++ u).escaped = s.escaped ++ u.escaped :=
  List.flatMap_append

theorem quoted_ofText (t : Text) : (ofText t).quoted = t.quoted := by
  have hc : (ofText t).filterMap Point.char? = t := by
    rw [ofText, List.filterMap_map]
    exact List.filterMap_some
  have hq (quote : Char) : (ofText t).flatMap (Point.quoted quote) =
      t.flatMap (Text.Quoted.escape quote) := List.flatMap_map ..
  rw [quoted, Text.quoted, hc]
  simp only [hq]

/-- A raw text with no surrogate in it is a text. -/
theorem exists_ofText (h : ∀ x, .surrogate x ∉ s) : ∃ t, s = ofText t := by
  induction s with
  | nil => exact ⟨[], rfl⟩
  | cons p s ih =>
    obtain ⟨t, rfl⟩ := ih fun x hx => h x (List.mem_cons_of_mem p hx)
    cases p with
    | char c => exact ⟨c :: t, rfl⟩
    | surrogate x => exact absurd List.mem_cons_self (h x)

end Texts

end Raw
end Lexeme
