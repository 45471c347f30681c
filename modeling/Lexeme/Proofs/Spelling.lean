import Mathlib.Data.List.Forall2
import Mathlib.Data.List.TakeWhile
import Lexeme.Proofs.Decoding
import Lexeme.Settings.Environment

/-!
Spellings of a word. A text that is a word of ASCII once it is put in lower case is the word itself
with some of its letters as capitals, by `lowercase_eq_iff_recases`: the lower-case form of a
character of another script is no part of such a word, unless the word has a k, which the sign of the
kelvin becomes too. A text that is a word once it is trimmed is the word with blanks around it. A raw
text keeps its surrogates through all this, so that it becomes a text only if it is one.
-/

namespace Lexeme

namespace Text

/-- Every character of the word is there as it is or as a capital. -/
def Recases (v word : Text) : Prop := List.Forall₂ (fun c d => c = d ∨ c = d.toUpper) v word

/-- The text is the inner one with blanks before it and after it. -/
def Padded (s inner : Text) : Prop :=
  ∃ p q, (∀ c ∈ p, isBlank c = true) ∧ (∀ c ∈ q, isBlank c = true) ∧ s = p ++ inner ++ q

theorem Recases.forall_mem {P : Char → Prop} {v w : Text} (hr : Recases v w)
    (hw : ∀ d ∈ w, P d ∧ P d.toUpper) : ∀ c ∈ v, P c := by
  induction hr with
  | nil => exact List.forall_mem_nil _
  | cons h _ ih =>
    obtain ⟨hd, hw⟩ := List.forall_mem_cons.1 hw
    refine List.forall_mem_cons.2 ⟨?_, ih hw⟩
    rcases h with rfl | rfl
    · exact hd.1
    · exact hd.2

namespace Lowercase

/-- A character of ASCII that is the lower-case form of itself and at most of its capital. -/
def Unshared (d : Char) : Prop := d.toNat < 0x80 ∧ d.toLower = d ∧ d ≠ 'k'

instance : DecidablePred Unshared := fun d =>
  inferInstanceAs (Decidable (d.toNat < 0x80 ∧ d.toLower = d ∧ d ≠ 'k'))

section Forms

variable {c d : Char}

theorem forall_ascii {P : Char → Prop} (h : ∀ n < 0x80, P (Char.ofNat n)) {c : Char}
    (hc : c.toNat < 0x80) : P c := by
  rw [← Char.ofNat_toNat c]
  exact h _ hc

theorem toLower_eq_iff (hc : c.toNat < 0x80) (hd : Unshared d) :
    c.toLower = d ↔ c = d ∨ c = d.toUpper := by
  have up : c = c.toLower ∨ c = c.toLower.toUpper :=
    forall_ascii (P := fun c => c = c.toLower ∨ c = c.toLower.toUpper) (by decide) hc
  have down : d.toLower = d → d.toUpper.toLower = d :=
    forall_ascii (P := fun d => d.toLower = d → d.toUpper.toLower = d) (by decide) hd.1
  constructor
  · rintro rfl
    exact up
  · rintro (rfl | rfl)
    · exact hd.2.1
    · exact down hd.2.1

theorem toNat_lt_of_recased (hd : Unshared d) (h : c = d ∨ c = d.toUpper) : c.toNat < 0x80 := by
  rcases h with rfl | rfl
  · exact hd.1
  · exact forall_ascii (P := fun d => d.toUpper.toNat < 0x80) (by decide) hd.1

/-- All runs but that of the sign of the kelvin lead to letters above ASCII. -/
theorem run_above_ascii {r : CaseRun} (hr : r ∈ CaseRun.all) {n : Nat} (hn : r.contains n = true) :
    n = 0x212a ∧ (n + r.shift).toNat = 0x6b ∨ 0x80 ≤ (Char.ofNat (n + r.shift).toNat).toNat := by
  have table : ∀ r ∈ CaseRun.all,
      r.first = 0x212a ∧ r.last = 0x212a ∧ r.shift = -8383 ∨ 0x80 ≤ r.first + r.shift ∧
        (r.last + r.shift < 0xd800 ∨ 0xe000 ≤ r.first + r.shift ∧ r.last + r.shift < 0x110000) := by
    decide +kernel
  simp only [CaseRun.contains, Bool.and_eq_true, decide_eq_true_eq] at hn
  obtain ⟨⟨hf, hl⟩, -⟩ := hn
  rcases table r hr with ⟨h1, h2, h3⟩ | ⟨hlow, hhigh⟩
  · left
    omega
  · right
    rw [Utf8.toNat_ofNat_of_scalar (by omega)]
    omega

/-- The lower-case form of a character, given whether a letter stands right before it and what comes
after it. -/
def form (letterBefore : Bool) (c : Char) (rest : Text) : Text :=
  if c = capitalSigma then
    [Char.ofNat (if letterBefore && !letterAhead rest then 0x3c2 else 0x3c3)]
  else plain c

theorem after_cons (b : Bool) (c : Char) (rest : Text) :
    after b (c :: rest) =
      form b c rest ++ after (if isCaseIgnorable c then b else isCased c) rest := rfl

theorem form_of_ascii (hc : c.toNat < 0x80) (b : Bool) (rest : Text) :
    form b c rest = [c.toLower] := by
  have hs : c ≠ capitalSigma := by
    rintro rfl
    exact absurd hc (by decide)
  rw [form, if_neg hs, plain, if_pos hc]

/-- No character above ASCII but these two has a character of ASCII in its lower-case form. -/
theorem eq_of_ascii_mem_form (hc : 0x80 ≤ c.toNat) {b : Bool} {rest : Text} (hm : d ∈ form b c rest)
    (hd : d.toNat < 0x80) : c = dottedCapitalI ∧ d = 'i' ∨ c = Char.ofNat 0x212a ∧ d = 'k' := by
  by_cases hs : c = capitalSigma
  · rw [form, if_pos hs, List.mem_singleton] at hm
    have hn : 0x80 ≤ d.toNat := by rw [hm]; split <;> decide
    omega
  rw [form, if_neg hs, plain, if_neg (by omega)] at hm
  by_cases hi : c = dottedCapitalI
  · rw [if_pos hi] at hm
    obtain rfl | rfl : d = 'i' ∨ d = Char.ofNat 0x307 := by simpa using hm
    · exact .inl ⟨hi, rfl⟩
    · exact absurd hd (by decide)
  rw [if_neg hi] at hm
  split at hm
  · next r hr =>
    have hn := List.find?_some hr
    obtain rfl := List.mem_singleton.1 hm
    rcases run_above_ascii (List.mem_of_find?_eq_some hr) hn with ⟨hk, hv⟩ | hv
    · exact .inr ⟨by rw [← hk, Char.ofNat_toNat], congrArg Char.ofNat hv⟩
    · omega
  · obtain rfl := List.mem_singleton.1 hm
    omega

theorem form_ne_nil (b : Bool) (c : Char) (rest : Text) : form b c rest ≠ [] := by
  unfold form plain
  repeat' split
  all_goals exact List.cons_ne_nil _ _

theorem exists_mem_form_of_not_ascii (hc : 0x80 ≤ c.toNat) (b : Bool) (rest : Text) :
    ∃ d ∈ form b c rest, ¬ Unshared d := by
  by_cases hi : c = dottedCapitalI
  · have hf : form b c rest = ['i', Char.ofNat 0x307] := by rw [hi]; rfl
    exact ⟨Char.ofNat 0x307, by simp [hf], by decide⟩
  · obtain ⟨d, hd⟩ := List.exists_mem_of_ne_nil _ (form_ne_nil b c rest)
    refine ⟨d, hd, fun hu => ?_⟩
    rcases eq_of_ascii_mem_form hc hd hu.1 with ⟨h, -⟩ | ⟨-, h⟩
    · exact hi h
    · exact hu.2.2 h

end Forms

theorem after_eq_iff_recases {w : Text} (hw : ∀ d ∈ w, Unshared d) (b : Bool) (v : Text) :
    after b v = w ↔ Recases v w := by
  induction v generalizing b w with
  | nil => rw [after, Recases, List.forall₂_nil_left_iff, eq_comm]
  | cons c v ih =>
    rw [after_cons]
    rcases Nat.lt_or_ge c.toNat 0x80 with hc | hc
    · rw [form_of_ascii hc]
      cases w with
      | nil => simp [Recases]
      | cons d w =>
        obtain ⟨hd, hw⟩ := List.forall_mem_cons.1 hw
        rw [List.singleton_append, List.cons.injEq, ih hw, toLower_eq_iff hc hd, Recases, Recases,
          List.forall₂_cons]
    -- above ASCII neither side holds: the form has a character that the word has not
    · constructor
      · rintro rfl
        obtain ⟨d, hd, hu⟩ := exists_mem_form_of_not_ascii hc b v
        exact absurd (hw d (List.mem_append_left _ hd)) hu
      · intro hr
        obtain ⟨d, w, h, -, rfl⟩ := List.forall₂_cons_left_iff.1 hr
        exact absurd (toNat_lt_of_recased (hw d List.mem_cons_self) h) (by omega)

end Lowercase

theorem lowercase_eq_iff_recases {v w : Text} (hw : ∀ d ∈ w, Lowercase.Unshared d) :
    lowercase v = w ↔ Recases v w :=
  Lowercase.after_eq_iff_recases hw false v

example : lowercase [Char.ofNat 0x212a] = "k".toList := by rfl

section Padding

variable {s v : Text}

theorem padded_trim (s : Text) : Padded s (trim s) := by
  have hs := List.takeWhile_append_dropWhile (p := isBlank) (l := s)
  have ht := List.takeWhile_append_dropWhile (p := isBlank) (l := (s.dropWhile isBlank).reverse)
  refine ⟨s.takeWhile isBlank, ((s.dropWhile isBlank).reverse.takeWhile isBlank).reverse,
    fun c hc => List.mem_takeWhile_imp hc,
    fun c hc => List.mem_takeWhile_imp (List.mem_reverse.1 hc), ?_⟩
  rw [trim, trimBy, List.append_assoc, ← List.reverse_append, ht, List.reverse_reverse, hs]

theorem dropWhile_of_free (hv : ∀ c ∈ v, isBlank c = false) (hn : v ≠ []) (t : Text) :
    (v ++ t).dropWhile isBlank = v ++ t := by
  cases v with
  | nil => exact absurd rfl hn
  | cons c v => rw [List.cons_append, List.dropWhile_cons_of_neg (by simp [hv c List.mem_cons_self])]

theorem Padded.trim_eq (h : Padded s v) (hv : ∀ c ∈ v, isBlank c = false) : trim s = v := by
  obtain ⟨p, q, hp, hq, rfl⟩ := h
  rcases eq_or_ne v [] with rfl | hn
  · exact trim_of_blank (by simpa [or_imp, forall_and] using ⟨hp, hq⟩)
  · have hr := dropWhile_of_free (v := v.reverse) (by simpa using hv) (by simpa using hn) []
    rw [List.append_nil] at hr
    rw [trim, trimBy, List.append_assoc, List.dropWhile_append_of_pos hp, dropWhile_of_free hv hn,
      List.reverse_append, List.dropWhile_append_of_pos (by simpa using hq), hr, List.reverse_reverse]

end Padding

end Text

namespace Raw

variable {s : Raw} {w : Text}

theorem mem_trimBy_iff {α : Type} {drops : α → Bool} {a : α} (ha : drops a = false) (l : List α) :
    a ∈ Text.trimBy drops l ↔ a ∈ l := by
  have hd (l : List α) : a ∈ l.dropWhile drops ↔ a ∈ l := by
    have hl := List.takeWhile_append_dropWhile (p := drops) (l := l)
    have hn : a ∉ l.takeWhile drops := by
      intro hm
      exact absurd (List.mem_takeWhile_imp hm) (by simp [ha])
    rw [← hl, List.mem_append, or_iff_right hn, hl]
  rw [Text.trimBy, List.mem_reverse, hd, List.mem_reverse, hd]

theorem trim_ofText (t : Text) : (ofText t).trim = ofText t.trim := by
  have hb : Point.isBlank ∘ Point.char = Text.isBlank := rfl
  rw [trim, Text.trim, Text.trimBy, Text.trimBy, ofText, List.dropWhile_map, hb, ← List.map_reverse,
    List.dropWhile_map, hb, ← List.map_reverse, ofText]

theorem lowercase_ofText (t : Text) : (ofText t).lowercase = ofText t.lowercase :=
  onStretches_ofText _ t

theorem lowercase_eq_ofText_iff : s.lowercase = ofText w ↔ ∃ t, s = ofText t ∧ t.lowercase = w := by
  constructor
  · intro h
    obtain ⟨t, rfl⟩ := exists_ofText fun x hx => surrogate_not_mem_ofText w x
      (h ▸ surrogate_mem_onStretches.2 hx)
    rw [lowercase_ofText] at h
    exact ⟨t, rfl, ofText_injective h⟩
  · rintro ⟨t, rfl, rfl⟩
    exact lowercase_ofText t

theorem lowercase_trim_eq_ofText_iff :
    s.trim.lowercase = ofText w ↔ ∃ t, s = ofText t ∧ t.trim.lowercase = w := by
  rw [lowercase_eq_ofText_iff]
  constructor
  · rintro ⟨u, hu, rfl⟩
    obtain ⟨t, rfl⟩ := exists_ofText fun x hx => surrogate_not_mem_ofText u x
      (hu ▸ (mem_trimBy_iff rfl s).2 hx)
    rw [trim_ofText] at hu
    exact ⟨t, rfl, by rw [ofText_injective hu]⟩
  · rintro ⟨t, rfl, rfl⟩
    exact ⟨_, trim_ofText t, rfl⟩

end Raw

end Lexeme
