import KernelProbe.Text.Hex

/-!
# Reading words in hexadecimal

The digits of a number can be read back, and nothing but digits stands in a word behind `0x`. So in
a text that goes on with another character it is clear where a word ends and which one it is.

* `Text.IsHexDigit`, `Text.hexValue` -- the digits, and the number that they stand for;
* `Text.hexValue_hexDigits` -- the digits of a number stand for it;
* `Text.hex_append_inj` -- a word in front of other text.
-/

namespace KernelProbe.Text

/-- The digits, each at the place of the number that it stands for. -/
def hexAlphabet : List Char :=
  ['0', '1', '2', '3', '4', '5', '6', '7', '8', '9', 'a', 'b', 'c', 'd', 'e', 'f']

/-- A hexadecimal digit, in lower case. -/
def IsHexDigit (c : Char) : Prop :=
  c ∈ hexAlphabet

instance (c : Char) : Decidable (IsHexDigit c) :=
  inferInstanceAs (Decidable (c ∈ hexAlphabet))

/-- The number that digits stand for, the highest first. -/
def hexValue (digits : List Char) : Nat :=
  digits.foldl (fun value c => 16 * value + hexAlphabet.idxOf c) 0

variable {word other : UInt64} {c d : Char} {digits text rest : List Char}

/-! ## 1. Digits -/

theorem idxOf_digitChar : ∀ digit < 16, hexAlphabet.idxOf (Nat.digitChar digit) = digit := by
  decide

theorem isHexDigit_digitChar : ∀ digit < 16, IsHexDigit (Nat.digitChar digit) := by
  decide

/-- The digits of a number: those of its sixteenth part, and one more. -/
theorem hexDigits_eq (n : Nat) : hexDigits n =
    if n < 16 then [n.digitChar] else hexDigits (n / 16) ++ [(n % 16).digitChar] :=
  Nat.toDigits_eq_if (by decide)

theorem hexValue_append (digits : List Char) (c : Char) :
    hexValue (digits ++ [c]) = 16 * hexValue digits + hexAlphabet.idxOf c := by
  rw [hexValue, List.foldl_append]
  rfl

/-- **The digits of a number stand for it.** -/
theorem hexValue_hexDigits (n : Nat) : hexValue (hexDigits n) = n := by
  induction n using Nat.strongRecOn with
  | ind n ih =>
    rw [hexDigits_eq]
    split
    next hlt =>
      show 16 * 0 + hexAlphabet.idxOf n.digitChar = n
      rw [idxOf_digitChar n hlt]
      omega
    next hle =>
      rw [hexValue_append, ih (n / 16) (by omega), idxOf_digitChar _ (Nat.mod_lt n (by decide))]
      exact Nat.div_add_mod n 16

theorem isHexDigit_of_mem (n : Nat) (h : c ∈ hexDigits n) : IsHexDigit c := by
  induction n using Nat.strongRecOn with
  | ind n ih =>
    rw [hexDigits_eq] at h
    split at h
    next hlt =>
      rw [List.mem_singleton.mp h]
      exact isHexDigit_digitChar n hlt
    next hle =>
      rcases List.mem_append.mp h with h | h
      · exact ih (n / 16) (by omega) h
      · rw [List.mem_singleton.mp h]
        exact isHexDigit_digitChar _ (Nat.mod_lt n (by decide))

/-! ## 2. Words -/

theorem toList_hex (word : UInt64) : (hex word).toList = '0' :: 'x' :: hexDigits word.toNat := by
  rw [hex, String.toList_append, String.toList_ofList, String.toList_ofList]
  rfl

theorem mem_hex (h : c ∈ (hex word).toList) : c = 'x' ∨ IsHexDigit c := by
  rw [toList_hex] at h
  rcases List.mem_cons.mp h with rfl | h
  · exact .inr (by decide)
  · rcases List.mem_cons.mp h with rfl | h
    · exact .inl rfl
    · exact .inr (isHexDigit_of_mem _ h)

/-- In front of another character the digits are all there is to be read of a number. -/
theorem takeWhile_hexDigits (n : Nat) (hc : ¬ IsHexDigit c) :
    (hexDigits n ++ c :: rest).takeWhile (fun d => decide (IsHexDigit d)) = hexDigits n := by
  rw [List.takeWhile_append_of_pos fun d hd => decide_eq_true (isHexDigit_of_mem n hd),
    List.takeWhile_cons_of_neg (by simpa using hc), List.append_nil]

/-- **A word in front of other text** is known from the whole text, and so is the other text. -/
theorem hex_append_inj (hc : ¬ IsHexDigit c) (hd : ¬ IsHexDigit d)
    (h : (hex word).toList ++ c :: text = (hex other).toList ++ d :: rest) :
    word = other ∧ c :: text = d :: rest := by
  rw [toList_hex, toList_hex] at h
  have hbehind : hexDigits word.toNat ++ c :: text = hexDigits other.toNat ++ d :: rest :=
    (List.cons.inj (List.cons.inj h).2).2
  have hdigits : hexDigits word.toNat = hexDigits other.toNat := by
    rw [← takeWhile_hexDigits word.toNat hc, hbehind, takeWhile_hexDigits other.toNat hd]
  have hvalue : word.toNat = other.toNat := by
    rw [← hexValue_hexDigits word.toNat, hdigits, hexValue_hexDigits]
  rw [hdigits] at hbehind
  exact ⟨UInt64.toNat_inj.mp hvalue, List.append_cancel_left hbehind⟩

end KernelProbe.Text
