import ActionQuery.Text.Hex
import Mathlib.Algebra.Group.Nat.Defs

/-!
# Numbers in hexadecimal digits

A number in hexadecimal digits reads back as that number, however many zeros it is filled up with,
so no two numbers have one text at a width. The width itself is only a lower bound: a text has as
many digits for the numbers that so many digits can tell apart, and more from there on.
-/

namespace ActionQuery.Text

/-- A hexadecimal digit, letters in lower case. -/
def IsHexDigit (c : Char) : Prop := c.isDigit = true ∨ 'a' ≤ c ∧ c ≤ 'f'

instance (c : Char) : Decidable (IsHexDigit c) :=
  inferInstanceAs (Decidable (c.isDigit = true ∨ 'a' ≤ c ∧ c ≤ 'f'))

/-- As many hexadecimal digits as the width says. -/
def IsHexNumeral (width : Nat) (t : Text) : Prop := t.length = width ∧ ∀ c ∈ t, IsHexDigit c

theorem isHexDigit_digitChar {d : Nat} (h : d < 16) : IsHexDigit d.digitChar := by
  revert d
  decide

theorem hexDigit?_digitChar {d : Nat} (h : d < 16) : hexDigit? d.digitChar = some d := by
  revert d
  decide

theorem isHexDigit_of_mem_toDigits {n : Nat} {c : Char} (h : c ∈ Nat.toDigits 16 n) :
    IsHexDigit c := by
  -- The induction is on the digits: a single one, or a last one behind those of `m`.
  induction n using Nat.base_induction 16 (by decide) with
  | single d hd =>
      rw [Nat.toDigits_of_lt_base hd, List.mem_singleton] at h
      rw [h]
      exact isHexDigit_digitChar hd
  | digit m d hd hm ih =>
      rw [← Nat.toDigits_append_toDigits (by decide) hm hd, Nat.toDigits_of_lt_base hd,
        List.mem_append, List.mem_singleton] at h
      rcases h with hfront | rfl
      · exact ih hfront
      · exact isHexDigit_digitChar hd

theorem readHex?_singleton (c : Char) : readHex? [c] = hexDigit? c := by
  simp [readHex?]

/-- One more digit behind a number. -/
theorem readHex?_concat {t : Text} (h : t ≠ []) (c : Char) :
    readHex? (t ++ [c]) = (readHex? t).bind fun v => (hexDigit? c).map (v * 16 + ·) := by
  simp [readHex?, h, List.foldl_append]

theorem readHex?_zero_cons {t : Text} (h : t ≠ []) : readHex? ('0' :: t) = readHex? t := by
  have hzero : hexDigit? '0' = some 0 := by decide
  simp [readHex?, h, hzero]

theorem readHex?_zeros_append {t : Text} (h : t ≠ []) (k : Nat) :
    readHex? (List.replicate k '0' ++ t) = readHex? t := by
  induction k with
  | zero => rfl
  | succ k ih =>
      rw [List.replicate_succ, List.cons_append,
        readHex?_zero_cons (List.append_ne_nil_of_right_ne_nil _ h), ih]

theorem readHex?_toDigits (n : Nat) : readHex? (Nat.toDigits 16 n) = some n := by
  induction n using Nat.base_induction 16 (by decide) with
  | single d hd => rw [Nat.toDigits_of_lt_base hd, readHex?_singleton, hexDigit?_digitChar hd]
  | digit m d hd hm ih =>
      rw [← Nat.toDigits_append_toDigits (by decide) hm hd, Nat.toDigits_of_lt_base hd,
        readHex?_concat Nat.toDigits_ne_nil, ih, hexDigit?_digitChar hd, Option.bind_some,
        Option.map_some, Nat.mul_comm]

variable {width n : Nat}

theorem readHex?_hex (width n : Nat) : readHex? (hex width n) = some n := by
  rw [hex, readHex?_zeros_append Nat.toDigits_ne_nil, readHex?_toDigits]

theorem hex_injective (width : Nat) : Function.Injective (hex width) := by
  intro m n h
  have hread := congrArg readHex? h
  rw [readHex?_hex, readHex?_hex] at hread
  exact Option.some.inj hread

theorem length_hex_eq_iff (hwidth : 0 < width) :
    (hex width n).length = width ↔ n < 16 ^ width := by
  rw [← Nat.length_toDigits_le_iff (by decide) hwidth, hex, List.length_append,
    List.length_replicate]
  omega

theorem isHexNumeral_hex (hwidth : 0 < width) (h : n < 16 ^ width) :
    IsHexNumeral width (hex width n) := by
  refine ⟨(length_hex_eq_iff hwidth).2 h, fun c hc => ?_⟩
  rcases List.mem_append.1 hc with hzero | hdigit
  · rw [List.eq_of_mem_replicate hzero]
    exact Or.inl rfl
  · exact isHexDigit_of_mem_toDigits hdigit

theorem hex_zero (hwidth : 0 < width) : hex width 0 = List.replicate width '0' := by
  obtain ⟨k, rfl⟩ := Nat.exists_eq_add_of_lt hwidth
  rw [Nat.zero_add, hex, Nat.toDigits_zero, List.replicate_succ']
  rfl

theorem isHexNumeral_zeros (hwidth : 0 < width) :
    IsHexNumeral width (List.replicate width '0') := by
  rw [← hex_zero hwidth]
  exact isHexNumeral_hex hwidth (Nat.pow_pos (by decide))

theorem hex_eq_zeros_iff (hwidth : 0 < width) : hex width n = List.replicate width '0' ↔ n = 0 := by
  rw [← hex_zero hwidth, (hex_injective width).eq_iff]

end ActionQuery.Text
