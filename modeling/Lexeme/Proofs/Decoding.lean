import Lexeme.Text.Utf8

/-!
The reader of UTF-8 accepts the encodings of texts and nothing else, by `decode_eq_ok_iff`. That it
reads what was encoded is a computation for each length of a character. The other way, a character
that has been opened leads to bytes which encode it, whatever bytes within bounds come next; a first
byte opens only such characters, and the induction on the bytes carries this along with the bytes
already taken.
-/

namespace Lexeme.Text.Utf8

section Encoding

theorem toNat_ofNat_of_scalar {v : Nat} (h : v < 0xd800 ∨ (0xdfff < v ∧ v < 0x110000)) :
    (Char.ofNat v).toNat = v := by
  rw [Char.ofNat, dif_pos h]
  rfl

theorem encodeChar_one {v : Nat} {a : UInt8} (hv : v < 0x80) (ha : a.toNat = v) :
    String.utf8EncodeChar (Char.ofNat v) = [a] := by
  have hn : (Char.ofNat v).val.toNat = v := toNat_ofNat_of_scalar (by omega)
  have h1 : v ≤ 0x7f := by omega
  simp only [String.utf8EncodeChar, hn, h1, if_true]
  rw [← ha, UInt8.ofNat_toNat]

theorem encodeChar_two {v : Nat} {a b : UInt8} (hl : 0x80 ≤ v) (hv : v < 0x800)
    (ha : a.toNat = v / 64 + 0xc0) (hb : b.toNat = v % 64 + 0x80) :
    String.utf8EncodeChar (Char.ofNat v) = [a, b] := by
  have hn : (Char.ofNat v).val.toNat = v := toNat_ofNat_of_scalar (by omega)
  have h1 : ¬ v ≤ 0x7f := by omega
  have h2 : v ≤ 0x7ff := by omega
  have ha : v / 64 % 0x20 + 0xc0 = a.toNat := by omega
  simp only [String.utf8EncodeChar, hn, h1, h2, if_true, if_false, ha, ← hb, UInt8.ofNat_toNat]

theorem encodeChar_three {v : Nat} {a b c : UInt8} (hl : 0x800 ≤ v) (hv : v < 0x10000)
    (hs : v < 0xd800 ∨ 0xdfff < v) (ha : a.toNat = v / 4096 + 0xe0)
    (hb : b.toNat = v / 64 % 64 + 0x80) (hc : c.toNat = v % 64 + 0x80) :
    String.utf8EncodeChar (Char.ofNat v) = [a, b, c] := by
  have hn : (Char.ofNat v).val.toNat = v := toNat_ofNat_of_scalar (by omega)
  have h1 : ¬ v ≤ 0x7f := by omega
  have h2 : ¬ v ≤ 0x7ff := by omega
  have h3 : v ≤ 0xffff := by omega
  have ha : v / 4096 % 0x10 + 0xe0 = a.toNat := by omega
  simp only [String.utf8EncodeChar, hn, h1, h2, h3, if_true, if_false, ha, ← hb, ← hc,
    UInt8.ofNat_toNat]

theorem encodeChar_four {v : Nat} {a b c d : UInt8} (hl : 0x10000 ≤ v) (hv : v < 0x110000)
    (ha : a.toNat = v / 262144 + 0xf0) (hb : b.toNat = v / 4096 % 64 + 0x80)
    (hc : c.toNat = v / 64 % 64 + 0x80) (hd : d.toNat = v % 64 + 0x80) :
    String.utf8EncodeChar (Char.ofNat v) = [a, b, c, d] := by
  have hn : (Char.ofNat v).val.toNat = v := toNat_ofNat_of_scalar (by omega)
  have h1 : ¬ v ≤ 0x7f := by omega
  have h2 : ¬ v ≤ 0x7ff := by omega
  have h3 : ¬ v ≤ 0xffff := by omega
  have ha : v / 262144 % 0x08 + 0xf0 = a.toNat := by omega
  simp only [String.utf8EncodeChar, hn, h1, h2, h3, if_false, ha, ← hb, ← hc, ← hd,
    UInt8.ofNat_toNat]

end Encoding

section Opening

/-- A character of two bytes, by its first one. -/
def Opened.two (a : UInt8) : Opened := { taken := [a], value := a.toNat - 0xc0, owed := 0 }

def Opened.three (a : UInt8) : Opened where
  taken := [a]
  value := a.toNat - 0xe0
  owed := 1
  low := if a.toNat = 0xe0 then 0xa0 else 0x80
  high := if a.toNat = 0xed then 0x9f else 0xbf

def Opened.four (a : UInt8) : Opened where
  taken := [a]
  value := a.toNat - 0xf0
  owed := 2
  low := if a.toNat = 0xf0 then 0x90 else 0x80
  high := if a.toNat = 0xf4 then 0x8f else 0xbf

theorem Opened.ofFirst?_two {a : UInt8} (hl : 0xc2 ≤ a.toNat) (hh : a.toNat < 0xe0) :
    ofFirst? a = some (two a) := by
  have h1 : ¬ a.toNat < 0xc2 := by omega
  simp only [ofFirst?, h1, hh, if_true, if_false, two]

theorem Opened.ofFirst?_three {a : UInt8} (hl : 0xe0 ≤ a.toNat) (hh : a.toNat < 0xf0) :
    ofFirst? a = some (three a) := by
  have h1 : ¬ a.toNat < 0xc2 := by omega
  have h2 : ¬ a.toNat < 0xe0 := by omega
  by_cases he : a.toNat = 0xe0
  · simp [ofFirst?, three, he]
  by_cases hd : a.toNat = 0xed
  · simp [ofFirst?, three, hd]
  · simp [ofFirst?, three, h1, h2, he, hd, hh]

theorem Opened.ofFirst?_four {a : UInt8} (hl : 0xf0 ≤ a.toNat) (hh : a.toNat < 0xf5) :
    ofFirst? a = some (four a) := by
  have h1 : ¬ a.toNat < 0xc2 := by omega
  have h2 : ¬ a.toNat < 0xe0 := by omega
  have h3 : ¬ a.toNat = 0xe0 := by omega
  have h4 : ¬ a.toNat = 0xed := by omega
  have h5 : ¬ a.toNat < 0xf0 := by omega
  by_cases hf : a.toNat = 0xf0
  · simp [ofFirst?, four, hf]
  by_cases hg : a.toNat = 0xf4
  · simp [ofFirst?, four, hg]
  · have h6 : a.toNat < 0xf4 := by omega
    simp [ofFirst?, four, h1, h2, h3, h4, h5, hf, hg, h6]

theorem Opened.ofFirst?_none {a : UInt8} (h : a.toNat < 0xc2 ∨ 0xf5 ≤ a.toNat) :
    ofFirst? a = none := by
  unfold ofFirst?
  rcases h with h | h
  · simp [h]
  · have h1 : ¬ a.toNat < 0xc2 := by omega
    have h2 : ¬ a.toNat < 0xe0 := by omega
    have h3 : ¬ a.toNat = 0xe0 := by omega
    have h4 : ¬ a.toNat = 0xed := by omega
    have h5 : ¬ a.toNat < 0xf0 := by omega
    have h6 : ¬ a.toNat = 0xf0 := by omega
    have h7 : ¬ a.toNat = 0xf4 := by omega
    have h8 : ¬ a.toNat < 0xf4 := by omega
    simp [h1, h2, h3, h4, h5, h6, h7, h8]

end Opening

section Reading

/-- Whatever bytes within bounds come next, they complete a character that they encode. -/
def Opened.Leads : Nat → Opened → Prop
  | 0, o => ∀ b : UInt8, o.low ≤ b.toNat → b.toNat ≤ o.high →
    String.utf8EncodeChar (Char.ofNat (o.value * 64 + (b.toNat - 0x80))) = o.taken.reverse ++ [b]
  | n + 1, o => ∀ b : UInt8, o.low ≤ b.toNat → b.toNat ≤ o.high →
    Leads n ⟨b :: o.taken, o.value * 64 + (b.toNat - 0x80), n, 0x80, 0xbf⟩

theorem Opened.two_leads {a : UInt8} (hl : 0xc2 ≤ a.toNat) (hh : a.toNat < 0xe0) :
    (two a).Leads 0 := by
  intro b hb hb'
  simp only [two] at hb hb' ⊢
  apply encodeChar_two <;> omega

theorem Opened.three_leads {a : UInt8} (hl : 0xe0 ≤ a.toNat) (hh : a.toNat < 0xf0) :
    (three a).Leads 1 := by
  intro b hb hb' c hc hc'
  simp only [three] at hb hb' hc hc' ⊢
  apply encodeChar_three <;> (revert hb hb'; split <;> split <;> omega)

theorem Opened.four_leads {a : UInt8} (hl : 0xf0 ≤ a.toNat) (hh : a.toNat < 0xf5) :
    (four a).Leads 2 := by
  intro b hb hb' c hc hc' d hd hd'
  simp only [four] at hb hb' hc hc' hd hd' ⊢
  apply encodeChar_four <;> (revert hb hb'; split <;> split <;> omega)

theorem Opened.ofFirst?_leads {a : UInt8} {o : Opened} (h : ofFirst? a = some o) :
    o.taken = [a] ∧ o.Leads o.owed := by
  by_cases h1 : a.toNat < 0xc2
  · rw [ofFirst?_none (.inl h1)] at h
    exact absurd h (by simp)
  by_cases h2 : a.toNat < 0xe0
  · rw [ofFirst?_two (by omega) h2] at h
    obtain rfl := Option.some.inj h
    exact ⟨rfl, two_leads (by omega) h2⟩
  by_cases h3 : a.toNat < 0xf0
  · rw [ofFirst?_three (by omega) h3] at h
    obtain rfl := Option.some.inj h
    exact ⟨rfl, three_leads (by omega) h3⟩
  by_cases h4 : a.toNat < 0xf5
  · rw [ofFirst?_four (by omega) h4] at h
    obtain rfl := Option.some.inj h
    exact ⟨rfl, four_leads (by omega) h4⟩
  · rw [ofFirst?_none (.inr (by omega))] at h
    exact absurd h (by simp)

theorem encode_cons (c : Char) (s : Text) :
    encode (c :: s) = String.utf8EncodeChar c ++ encode s := List.flatMap_cons

theorem exists_of_map_eq_ok {x : Except Fault Text} {c : Char} {s : Text}
    (h : (c :: ·) <$> x = .ok s) : ∃ t, x = .ok t ∧ s = c :: t := by
  cases x with
  | error f => exact absurd h (by simp [Functor.map, Except.map])
  | ok t => exact ⟨t, rfl, (Except.ok.inj h).symm⟩

/-- The bytes taken of a character that is being read. -/
def takenOf : Option Opened → Bytes
  | none => []
  | some o => o.taken.reverse

def LeadsFrom : Option Opened → Prop
  | none => True
  | some o => o.Leads o.owed

theorem encode_of_decodeFrom {position : Nat} {opened : Option Opened} {bytes : Bytes} {s : Text}
    (hl : LeadsFrom opened) (h : decodeFrom position opened bytes = .ok s) :
    encode s = takenOf opened ++ bytes := by
  fun_induction decodeFrom position opened bytes generalizing s with
  | case1 =>
    obtain rfl := Except.ok.inj h
    rfl
  | case3 position b rest hb ih =>
    obtain ⟨t, ht, rfl⟩ := exists_of_map_eq_ok h
    rw [encode_cons, encodeChar_one hb rfl, ih trivial ht]
    rfl
  | case4 position b rest _ o ho ih =>
    obtain ⟨ht, hl⟩ := Opened.ofFirst?_leads ho
    rw [ih hl h, takenOf, takenOf, ht]
    rfl
  | case6 position o b rest hb value ho =>
    rename_i ih
    obtain ⟨t, ht, rfl⟩ := exists_of_map_eq_ok h
    rw [LeadsFrom, ho] at hl
    rw [encode_cons, ih trivial ht, hl b hb.1 hb.2, takenOf, takenOf, List.nil_append,
      List.append_assoc, List.singleton_append]
  | case7 position o b rest hb value owed ho =>
    rename_i ih
    rw [LeadsFrom, ho] at hl
    rw [ih (hl b hb.1 hb.2) h, takenOf, takenOf, List.reverse_cons, List.append_assoc,
      List.singleton_append]
  | case2 | case5 | case8 => exact absurd h (by simp)

theorem decodeFrom_first {a : UInt8} {o : Opened} (ha : 0x80 ≤ a.toNat)
    (ho : Opened.ofFirst? a = some o) (position : Nat) (rest : Bytes) :
    decodeFrom position none (a :: rest) = decodeFrom (position + 1) (some o) rest := by
  rw [decodeFrom, if_neg (by omega), ho]

theorem decodeFrom_more {o : Opened} {b : UInt8} {n : Nat} (ho : o.owed = n + 1)
    (hl : o.low ≤ b.toNat) (hh : b.toNat ≤ o.high) (position : Nat) (rest : Bytes) :
    decodeFrom position (some o) (b :: rest) =
      decodeFrom (position + 1)
        (some ⟨b :: o.taken, o.value * 64 + (b.toNat - 0x80), n, 0x80, 0xbf⟩) rest := by
  rw [decodeFrom, if_pos ⟨hl, hh⟩, ho]

theorem decodeFrom_last {o : Opened} {b : UInt8} (ho : o.owed = 0) (hl : o.low ≤ b.toNat)
    (hh : b.toNat ≤ o.high) (position : Nat) (rest : Bytes) :
    decodeFrom position (some o) (b :: rest) =
      (Char.ofNat (o.value * 64 + (b.toNat - 0x80)) :: ·) <$> decodeFrom (position + 1) none rest := by
  rw [decodeFrom, if_pos ⟨hl, hh⟩, ho]

theorem exists_byte {n : Nat} (h : n < 256) : ∃ b : UInt8, b.toNat = n :=
  ⟨UInt8.ofNat n, by rw [UInt8.toNat_ofNat']; omega⟩

theorem decodeFrom_two {a b : UInt8} (ha : 0xc2 ≤ a.toNat) (ha' : a.toNat < 0xe0)
    (hb : 0x80 ≤ b.toNat) (hb' : b.toNat ≤ 0xbf) (position : Nat) (rest : Bytes) :
    ∃ p, decodeFrom position none (a :: b :: rest) =
      (Char.ofNat ((a.toNat - 0xc0) * 64 + (b.toNat - 0x80)) :: ·) <$> decodeFrom p none rest :=
  ⟨_, (decodeFrom_first (by omega) (Opened.ofFirst?_two ha ha') position _).trans
    (decodeFrom_last rfl hb hb' _ rest)⟩

theorem decodeFrom_three {a b c : UInt8} (ha : 0xe0 ≤ a.toNat) (ha' : a.toNat < 0xf0)
    (hb : (if a.toNat = 0xe0 then 0xa0 else 0x80) ≤ b.toNat)
    (hb' : b.toNat ≤ if a.toNat = 0xed then 0x9f else 0xbf)
    (hc : 0x80 ≤ c.toNat) (hc' : c.toNat ≤ 0xbf) (position : Nat) (rest : Bytes) :
    ∃ p, decodeFrom position none (a :: b :: c :: rest) =
      (Char.ofNat (((a.toNat - 0xe0) * 64 + (b.toNat - 0x80)) * 64 + (c.toNat - 0x80)) :: ·) <$>
        decodeFrom p none rest :=
  ⟨_, ((decodeFrom_first (by omega) (Opened.ofFirst?_three ha ha') position _).trans
    (decodeFrom_more rfl hb hb' _ _)).trans (decodeFrom_last rfl hc hc' _ rest)⟩

theorem decodeFrom_four {a b c d : UInt8} (ha : 0xf0 ≤ a.toNat) (ha' : a.toNat < 0xf5)
    (hb : (if a.toNat = 0xf0 then 0x90 else 0x80) ≤ b.toNat)
    (hb' : b.toNat ≤ if a.toNat = 0xf4 then 0x8f else 0xbf)
    (hc : 0x80 ≤ c.toNat) (hc' : c.toNat ≤ 0xbf) (hd : 0x80 ≤ d.toNat) (hd' : d.toNat ≤ 0xbf)
    (position : Nat) (rest : Bytes) :
    ∃ p, decodeFrom position none (a :: b :: c :: d :: rest) =
      (Char.ofNat ((((a.toNat - 0xf0) * 64 + (b.toNat - 0x80)) * 64 + (c.toNat - 0x80)) * 64 +
        (d.toNat - 0x80)) :: ·) <$> decodeFrom p none rest :=
  ⟨_, (((decodeFrom_first (by omega) (Opened.ofFirst?_four ha ha') position _).trans
    (decodeFrom_more rfl hb hb' _ _)).trans (decodeFrom_more rfl hc hc' _ _)).trans
    (decodeFrom_last rfl hd hd' _ rest)⟩

theorem decodeFrom_encodeChar (c : Char) (position : Nat) (rest : Bytes) :
    ∃ p, decodeFrom position none (String.utf8EncodeChar c ++ rest) =
      (c :: ·) <$> decodeFrom p none rest := by
  have hs : c.toNat < 0xd800 ∨ (0xdfff < c.toNat ∧ c.toNat < 0x110000) := c.valid
  have hc : Char.ofNat c.toNat = c := Char.ofNat_toNat c
  generalize c.toNat = v at hs hc
  subst hc
  by_cases h1 : v < 0x80
  · obtain ⟨a, ha⟩ := exists_byte (n := v) (by omega)
    rw [encodeChar_one h1 ha, List.singleton_append, decodeFrom, if_pos (by omega), ha]
    exact ⟨_, rfl⟩
  by_cases h2 : v < 0x800
  · obtain ⟨a, ha⟩ := exists_byte (n := v / 64 + 0xc0) (by omega)
    obtain ⟨b, hb⟩ := exists_byte (n := v % 64 + 0x80) (by omega)
    have hv : (a.toNat - 0xc0) * 64 + (b.toNat - 0x80) = v := by omega
    rw [encodeChar_two (by omega) h2 ha hb, ← hv]
    apply decodeFrom_two <;> omega
  by_cases h3 : v < 0x10000
  · obtain ⟨a, ha⟩ := exists_byte (n := v / 4096 + 0xe0) (by omega)
    obtain ⟨b, hb⟩ := exists_byte (n := v / 64 % 64 + 0x80) (by omega)
    obtain ⟨d, hd⟩ := exists_byte (n := v % 64 + 0x80) (by omega)
    have hv : ((a.toNat - 0xe0) * 64 + (b.toNat - 0x80)) * 64 + (d.toNat - 0x80) = v := by omega
    rw [encodeChar_three (by omega) h3 (by omega) ha hb hd, ← hv]
    exact decodeFrom_three (by omega) (by omega) (by split <;> omega) (by split <;> omega)
      (by omega) (by omega) position rest
  · obtain ⟨a, ha⟩ := exists_byte (n := v / 262144 + 0xf0) (by omega)
    obtain ⟨b, hb⟩ := exists_byte (n := v / 4096 % 64 + 0x80) (by omega)
    obtain ⟨d, hd⟩ := exists_byte (n := v / 64 % 64 + 0x80) (by omega)
    obtain ⟨e, he⟩ := exists_byte (n := v % 64 + 0x80) (by omega)
    have hv : (((a.toNat - 0xf0) * 64 + (b.toNat - 0x80)) * 64 + (d.toNat - 0x80)) * 64 +
        (e.toNat - 0x80) = v := by omega
    rw [encodeChar_four (by omega) (by omega) ha hb hd he, ← hv]
    exact decodeFrom_four (by omega) (by omega) (by split <;> omega) (by split <;> omega)
      (by omega) (by omega) (by omega) (by omega) position rest

theorem decodeFrom_encode (s : Text) (position : Nat) :
    decodeFrom position none (encode s) = .ok s := by
  induction s generalizing position with
  | nil => rfl
  | cons c s ih =>
    obtain ⟨p, hp⟩ := decodeFrom_encodeChar c position (encode s)
    rw [encode_cons, hp, ih]
    rfl

theorem decode_eq_ok_iff {bytes : Bytes} {s : Text} : decode bytes = .ok s ↔ encode s = bytes := by
  constructor
  · intro h
    have hl : LeadsFrom none := trivial
    exact encode_of_decodeFrom hl h
  · intro h
    rw [← h]
    exact decodeFrom_encode s 0

end Reading

end Lexeme.Text.Utf8
