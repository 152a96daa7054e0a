import Mathlib.Algebra.Group.Nat.Defs
import KernelProbe.Address

/-!
# Page numbers and spans as natural numbers

Address arithmetic is done on machine words. Here each of its operations is read as one on natural
numbers, once and for all, so that later proofs speak of sums, multiples and remainders only.

* `advance?_eq_some_iff`, `retreat?_eq_some_iff` -- an address further on is a sum that still is an
  address, and the other way round;
* `VAddr.testBit_withPageNumber` -- replacing a page number, bit by bit;
* `VAddr.toNat_withPageNumber` -- in an address whose field is empty the page number is added;
* `VAddr.toNat_plus_levelSpan` -- the last address under an entry;
* `PAddr.toNat_ofPageNumber` -- a page begins at its number times the page size.
-/

namespace KernelProbe

theorem VAddr.eq_of_toNat {address other : VAddr} (h : address.bits.toNat = other.bits.toNat) :
    address = other :=
  congrArg VAddr.mk (UInt64.toNat_inj.mp h)

theorem PAddr.eq_of_toNat {address other : PAddr} (h : address.bits.toNat = other.bits.toNat) :
    address = other :=
  congrArg PAddr.mk (UInt64.toNat_inj.mp h)

/-! ## 1. Sums -/

theorem advance?_eq_some_iff {base address : UInt64} {offset : Nat} :
    advance? base offset = some address ↔ base.toNat + offset = address.toNat := by
  have hlt := address.toNat_lt
  unfold advance?
  constructor
  · intro h
    split at h
    · cases h
      rw [UInt64.toNat_ofNat_of_lt' (by assumption)]
    · cases h
  · intro h
    rw [if_pos (by rw [h]; exact hlt), h, UInt64.ofNat_toNat]

theorem advance?_of_lt {base : UInt64} {offset : Nat} (h : base.toNat + offset < 2 ^ 64) :
    advance? base offset = some (.ofNat (base.toNat + offset)) :=
  if_pos h

theorem advance?_of_le {base : UInt64} {offset : Nat} (h : 2 ^ 64 ≤ base.toNat + offset) :
    advance? base offset = none :=
  if_neg (Nat.not_lt.mpr h)

theorem retreat?_eq_some_iff {base address : UInt64} {offset : Nat} :
    retreat? base offset = some address ↔ address.toNat + offset = base.toNat := by
  have hlt := base.toNat_lt
  unfold retreat?
  constructor
  · intro h
    split at h
    · cases h
      rw [UInt64.toNat_ofNat_of_lt' (Nat.lt_of_le_of_lt (Nat.sub_le _ _) hlt)]
      omega
    · cases h
  · intro h
    rw [if_pos (by omega), show base.toNat - offset = address.toNat by omega, UInt64.ofNat_toNat]

theorem retreat?_eq_none_iff {base : UInt64} {offset : Nat} :
    retreat? base offset = none ↔ base.toNat < offset := by
  unfold retreat?
  by_cases h : offset ≤ base.toNat
  · rw [if_pos h]
    exact iff_of_false (fun hsome => nomatch hsome) (Nat.not_lt.mpr h)
  · rw [if_neg h]
    exact iff_of_true rfl (Nat.lt_of_not_le h)

/-! ## 2. Positions and spans of the levels -/

theorem levelShift_eq (level : Nat) : levelShift level = 12 + 9 * level := rfl

theorem levelShift_lt {level : Nat} (h : level ≤ 5) : levelShift level < 64 := by
  rw [levelShift_eq]
  omega

/-- A shift by the position of a level is not cut to the width of a word. -/
theorem toNat_shiftLeft_level {level : Nat} (h : level ≤ 5) (word : UInt64) :
    (word <<< UInt64.ofNat (levelShift level)).toNat =
      word.toNat <<< levelShift level % 2 ^ 64 := by
  have hlt := levelShift_lt h
  rw [UInt64.toNat_shiftLeft, UInt64.toNat_ofNat_of_lt' (by simp [UInt64.size]; omega),
    Nat.mod_eq_of_lt hlt]

theorem levelSpan_toNat {level : Nat} (h : level ≤ 5) :
    (levelSpan level).toNat = 2 ^ levelShift level := by
  unfold levelSpan
  rw [toNat_shiftLeft_level h, UInt64.toNat_one, Nat.one_shiftLeft,
    Nat.mod_eq_of_lt (Nat.pow_lt_pow_right (by decide) (levelShift_lt h))]

/-- The distance from the first address under an entry to the last. -/
theorem levelSpan_sub_one_toNat {level : Nat} (h : level ≤ 5) :
    (levelSpan level - 1).toNat = 2 ^ levelShift level - 1 := by
  have hspan := levelSpan_toNat h
  have hle : (1 : UInt64) ≤ levelSpan level := by
    rw [UInt64.le_iff_toNat_le, hspan]
    exact Nat.two_pow_pos _
  rw [UInt64.toNat_sub_of_le _ _ hle, hspan]
  rfl

/-! ## 3. Replacing a page number -/

theorem testBit_levelMask (i : Nat) : levelMask.testBit i = decide (i < 9) :=
  Nat.testBit_two_pow_sub_one 9 i

theorem testBit_not_word (word : UInt64) (i : Nat) :
    (~~~word).toNat.testBit i = (decide (i < 64) && !word.toNat.testBit i) :=
  BitVec.getLsbD_not

theorem testBit_word (word : UInt64) {i : Nat} (h : 64 ≤ i) : word.toNat.testBit i = false :=
  Nat.testBit_lt_two_pow (Nat.lt_of_lt_of_le word.toNat_lt (Nat.pow_le_pow_right (by decide) h))

/-- **The page number of one level, bit by bit**: the field holds the low nine bits of the number,
    as far as the word reaches, and every other bit stays. -/
theorem VAddr.testBit_withPageNumber (address : VAddr) {level : Nat} (h : level ≤ 5)
    (number i : Nat) :
    (address.withPageNumber level number).bits.toNat.testBit i =
      if levelShift level ≤ i ∧ i < levelShift level + 9 ∧ i < 64 then
        number.testBit (i - levelShift level)
      else address.bits.toNat.testBit i := by
  have hmask : (UInt64.ofNat levelMask).toNat = levelMask := by decide
  have hnumber : (UInt64.ofNat (number &&& levelMask)).toNat = number &&& levelMask := by
    refine UInt64.toNat_ofNat_of_lt' (Nat.lt_of_le_of_lt Nat.and_le_right ?_)
    decide
  unfold withPageNumber
  simp only [UInt64.toNat_or, UInt64.toNat_and, toNat_shiftLeft_level h, hmask, hnumber,
    Nat.testBit_or, Nat.testBit_and, testBit_not_word, Nat.testBit_mod_two_pow,
    Nat.testBit_shiftLeft, testBit_levelMask]
  by_cases hi : i < 64
  · by_cases hlow : levelShift level ≤ i
    · have hsub : i - levelShift level < 9 ↔ i < levelShift level + 9 := by omega
      by_cases hhigh : i < levelShift level + 9 <;> simp [hi, hlow, hsub, hhigh]
    · simp [hi, hlow]
  · simp [hi, testBit_word address.bits (by omega : 64 ≤ i)]

/-- **An address whose field is empty and has only zeros below it gets the number added**, in units
    of the level. -/
theorem VAddr.toNat_withPageNumber {base : VAddr} {level number : Nat} (h : level ≤ 2)
    (hbase : base.bits.toNat % 2 ^ levelShift (level + 1) = 0) (hnumber : number < 512) :
    (base.withPageNumber level number).bits.toNat =
      base.bits.toNat + number * 2 ^ levelShift level := by
  obtain ⟨q, hq⟩ := Nat.dvd_of_mod_eq_zero hbase
  have hshift : levelShift (level + 1) = levelShift level + 9 := rfl
  have hwidth : levelShift level + 9 ≤ 64 := by rw [levelShift_eq]; omega
  have hsmall : 2 ^ levelShift level * number < 2 ^ (levelShift level + 9) := by
    rw [Nat.pow_add]
    exact Nat.mul_lt_mul_of_pos_left hnumber (Nat.two_pow_pos _)
  rw [hshift] at hq
  refine Nat.eq_of_testBit_eq fun i => ?_
  rw [testBit_withPageNumber base (by omega), hq, Nat.mul_comm number,
    Nat.testBit_two_pow_mul_add q hsmall, Nat.testBit_two_pow_mul, Nat.testBit_two_pow_mul]
  by_cases hhigh : i < levelShift level + 9
  · have hi : i < 64 := by omega
    have hge : ¬ levelShift level + 9 ≤ i := by omega
    by_cases hlow : levelShift level ≤ i <;> simp [hhigh, hge, hlow, hi]
  · have hge : levelShift level + 9 ≤ i := by omega
    simp [hhigh, hge]

/-! ## 4. Ends and pages -/

theorem VAddr.toNat_plus {address : VAddr} {count : UInt64}
    (h : address.bits.toNat + count.toNat < 2 ^ 64) :
    (address.plus count).bits.toNat = address.bits.toNat + count.toNat := by
  unfold plus
  rw [UInt64.toNat_add, Nat.mod_eq_of_lt h]

/-- The last address under an entry of a level. -/
theorem VAddr.toNat_plus_levelSpan {address : VAddr} {level : Nat} (h : level ≤ 5)
    (hfits : address.bits.toNat + 2 ^ levelShift level ≤ 2 ^ 64) :
    (address.plus (levelSpan level - 1)).bits.toNat =
      address.bits.toNat + 2 ^ levelShift level - 1 := by
  have hpos : 0 < 2 ^ levelShift level := Nat.two_pow_pos _
  have hlast := levelSpan_sub_one_toNat h
  rw [toNat_plus (by omega), hlast]
  omega

theorem PAddr.toNat_ofPageNumber (number : BitVec 44) :
    (PAddr.ofPageNumber number).bits.toNat = number.toNat * 2 ^ 12 := by
  have hlt := number.isLt
  show (number.setWidth 64 <<< 12).toNat = _
  rw [BitVec.toNat_shiftLeft, BitVec.toNat_setWidth, Nat.shiftLeft_eq,
    Nat.mod_eq_of_lt (show number.toNat < 2 ^ 64 by omega),
    Nat.mod_eq_of_lt (show number.toNat * 2 ^ 12 < 2 ^ 64 by omega)]

end KernelProbe
