import Lexeme.Text.Basic

/-!
Hexadecimal digits of a fixed number, as escapes write them, and of a least number, as the notation
`U+0040` for code points does. Digits are read in either case.
-/

namespace Lexeme.Text.Hex

/-- The last `width` digits of a number, in lower case. -/
def fixed : Nat → Nat → Text
  | 0, _ => []
  | width + 1, n => fixed width (n / 16) ++ [Nat.digitChar (n % 16)]

def width (n : Nat) : Nat := n.log2 / 4 + 1

/-- At least `least` digits and never fewer than the number needs, in upper case. -/
def upper (least n : Nat) : Text := (fixed (max least (width n)) n).map Char.toUpper

def digit? (c : Char) : Option Nat :=
  if c.isDigit then some (c.toNat - 0x30)
  else if 'a' ≤ c ∧ c ≤ 'f' then some (c.toNat - 0x57)
  else if 'A' ≤ c ∧ c ≤ 'F' then some (c.toNat - 0x37)
  else none

def value? (digits : Text) : Option Nat :=
  digits.foldlM (fun n c => (digit? c).map (16 * n + ·)) 0

theorem length_fixed (w n : Nat) : (fixed w n).length = w := by
  induction w generalizing n with
  | zero => rfl
  | succ w ih => simp [fixed, ih]

theorem fixed_eq_leftpad {w n : Nat} (h : n < Nat.pow 16 (w + 1)) :
    fixed (w + 1) n = (Nat.toDigits 16 n).leftpad (w + 1) '0' := by
  induction w generalizing n with
  | zero =>
    have hn : n < 16 := h
    simp [fixed, Nat.toDigits_of_lt_base hn, Nat.mod_eq_of_lt hn, List.leftpad]
  | succ w ih =>
    have hq : n / 16 < Nat.pow 16 (w + 1) := Nat.div_lt_of_lt_mul (Nat.mul_comm _ 16 ▸ h)
    rw [fixed, ih hq]
    by_cases hn : n < 16
    · simp [Nat.toDigits_of_lt_base hn, Nat.mod_eq_of_lt hn, Nat.div_eq_of_lt hn, List.leftpad,
        List.replicate_succ']
    · rw [Nat.toDigits_of_base_le (n := n) (by decide) (Nat.le_of_not_lt hn)]
      simp [List.leftpad]

theorem lt_pow_width (n : Nat) : n < Nat.pow 16 (width n) := by
  have hb : n.log2 + 1 ≤ 4 * width n := by
    simp only [width]
    omega
  calc n < Nat.pow 2 (n.log2 + 1) := Nat.lt_log2_self
    _ ≤ Nat.pow 2 (4 * width n) := Nat.pow_le_pow_right (by decide) hb
    _ = Nat.pow 16 (width n) := Nat.pow_mul 2 4 (width n)

theorem width_le_length_toDigits (n : Nat) : width n ≤ (Nat.toDigits 16 n).length := by
  by_cases hq : n.log2 / 4 = 0
  · have hl : 0 < (Nat.toDigits 16 n).length := Nat.length_toDigits_pos
    simp only [width]
    omega
  · have hn : n ≠ 0 := by
      rintro rfl
      exact hq rfl
    have hp : Nat.pow 16 (n.log2 / 4) ≤ n :=
      calc Nat.pow 16 (n.log2 / 4) = Nat.pow 2 (4 * (n.log2 / 4)) := (Nat.pow_mul 2 4 _).symm
        _ ≤ Nat.pow 2 n.log2 := Nat.pow_le_pow_right (by decide) (Nat.mul_div_le _ _)
        _ ≤ n := Nat.log2_self_le hn
    have hl := mt (Nat.length_toDigits_le_iff (n := n) (b := 16) (by decide)
      (Nat.pos_of_ne_zero hq)).1 (Nat.not_lt.2 hp)
    simp only [width]
    omega

theorem upper_eq (least n : Nat) :
    upper least n = ((Nat.toDigits 16 n).leftpad least '0').map Char.toUpper := by
  have hw := width_le_length_toDigits n
  have hm : max least (width n) = max least (width n) - 1 + 1 := by
    simp only [width]
    omega
  have hn : n < Nat.pow 16 (max least (width n) - 1 + 1) := by
    rw [← hm]
    exact Nat.lt_of_lt_of_le (lt_pow_width n)
      (Nat.pow_le_pow_right (by decide) (Nat.le_max_right least (width n)))
  have hd : max least (width n) - (Nat.toDigits 16 n).length =
      least - (Nat.toDigits 16 n).length := by omega
  rw [upper, hm, fixed_eq_leftpad hn, ← hm, List.leftpad, List.leftpad, hd]

theorem exists_of_mem_fixed {w n : Nat} {c : Char} (h : c ∈ fixed w n) :
    ∃ d < 16, Nat.digitChar d = c := by
  induction w generalizing n with
  | zero => simp [fixed] at h
  | succ w ih =>
    rcases List.mem_append.1 h with h | h
    · exact ih h
    · exact ⟨n % 16, Nat.mod_lt n (by decide), (List.mem_singleton.1 h).symm⟩

theorem digit?_digitChar {d : Nat} (h : d < 16) : digit? (Nat.digitChar d) = some d := by
  have table : ∀ d < 16, digit? (Nat.digitChar d) = some d := by decide
  exact table d h

theorem value?_fixed (w n : Nat) : value? (fixed w n) = some (n % Nat.pow 16 w) := by
  induction w generalizing n with
  | zero => simp [value?, fixed, Nat.mod_one]
  | succ w ih =>
    have hd : n % 16 < 16 := Nat.mod_lt n (by decide)
    have hp : Nat.pow 16 (w + 1) = 16 * Nat.pow 16 w := Nat.mul_comm _ _
    have hm : 16 * (n / 16 % Nat.pow 16 w) + n % 16 = n % Nat.pow 16 (w + 1) := by
      rw [hp, Nat.mod_mul, Nat.add_comm]
    have ih := ih (n / 16)
    rw [value?] at ih
    simpa [value?, fixed, ih, digit?_digitChar hd] using hm

end Lexeme.Text.Hex
