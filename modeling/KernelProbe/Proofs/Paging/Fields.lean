import KernelProbe.Proofs.Paging.Translation

/-!
# The page numbers of an address

The page number of a level stands in nine bits of an address, or in fewer at the highest level,
where the word ends. The bits of two levels have nothing in common with each other or with the
offset. So a page number can be read and replaced without regard to the rest of the address, and an
address is the sum of its parts: the order of addresses is that of their parts, the root's page
number first.

* `levelEnd` -- where the page number of a level ends;
* `VAddr.testBit_replaced` -- an address with a page number replaced, bit by bit;
* `VAddr.toNat_ofParts` -- an address made of parts;
* `VAddr.pageNumbers_independent` -- all this together.
-/

namespace KernelProbe

/-- The first bit above the page number of a level, or above the word. -/
def levelEnd (level : Nat) : Nat :=
  min 64 (levelShift level + levelBits)

/-- Bits of two levels are different bits. -/
theorem levelEnd_le {level higher : Nat} (h : level < higher) :
    levelEnd level ≤ levelShift higher := by
  unfold levelEnd
  simp only [levelShift_eq, levelBits]
  omega

theorem testBit_pageIndex (level va i : Nat) :
    (pageIndex level va).val.testBit i =
      (decide (i < 9) && va.testBit (levelShift level + i)) := by
  show (va / 2 ^ (12 + 9 * level) % 2 ^ 9).testBit i = _
  rw [Nat.testBit_mod_two_pow, Nat.testBit_div_two_pow, levelShift_eq, Nat.add_comm i]

theorem testBit_pageOffset (address : UInt64) (i : Nat) :
    (pageOffset address).toNat.testBit i = (decide (i < 12) && address.toNat.testBit i) := by
  show (address % .ofNat pageSize).toNat.testBit i = _
  rw [UInt64.toNat_mod]
  exact Nat.testBit_mod_two_pow address.toNat 12 i

namespace VAddr

variable {address other : VAddr} {level higher number : Nat}

/-- Addresses with the same bits are the same. -/
theorem eq_of_testBit (h : ∀ i, address.bits.toNat.testBit i = other.bits.toNat.testBit i) :
    address = other :=
  eq_of_toNat (Nat.eq_of_testBit_eq h)

/-! ## 1. One page number -/

/-- **A page number replaced**: its bits are those of the number, and every other bit stays. -/
theorem testBit_replaced (h : level ≤ 5) (i : Nat) :
    (address.withPageNumber level number).bits.toNat.testBit i =
      if levelShift level ≤ i ∧ i < levelEnd level then
        (number % 512).testBit (i - levelShift level)
      else address.bits.toNat.testBit i := by
  have hend : i < levelEnd level ↔ i < levelShift level + 9 ∧ i < 64 := by
    unfold levelEnd
    simp only [levelBits]
    omega
  rw [testBit_withPageNumber address h, show 512 = 2 ^ 9 from rfl, Nat.testBit_mod_two_pow]
  by_cases hin : levelShift level ≤ i ∧ i < levelEnd level
  · rw [if_pos hin, if_pos ⟨hin.1, hend.mp hin.2⟩,
      decide_eq_true (by have := hend.mp hin.2; omega), Bool.true_and]
  · rw [if_neg hin, if_neg fun h => hin ⟨h.1, hend.mpr h.2⟩]

/-- Below the page numbers nothing changes. -/
theorem pageOffset_withPageNumber (h : level ≤ 5) :
    pageOffset (address.withPageNumber level number).bits = pageOffset address.bits := by
  refine UInt64.toNat_inj.mp (Nat.eq_of_testBit_eq fun i => ?_)
  rw [testBit_pageOffset, testBit_pageOffset]
  by_cases hi : i < 12
  · have hbelow : ¬ (levelShift level ≤ i ∧ i < levelEnd level) := by
      rw [levelShift_eq]
      omega
    rw [testBit_replaced h, if_neg hbelow]
  · rw [decide_eq_false hi, Bool.false_and, Bool.false_and]

/-- **Of two numbers for one level the last one stays.** -/
theorem withPageNumber_twice (h : level ≤ 5) (last : Nat) :
    (address.withPageNumber level number).withPageNumber level last =
      address.withPageNumber level last := by
  refine eq_of_testBit fun i => ?_
  rw [testBit_replaced h, testBit_replaced h, testBit_replaced h]
  split <;> rfl

/-- **Page numbers of two levels** can be replaced in either order. -/
theorem withPageNumber_comm (hhigher : higher ≤ 5) (h : level < higher) (last : Nat) :
    (address.withPageNumber level number).withPageNumber higher last =
      (address.withPageNumber higher last).withPageNumber level number := by
  have hlevel : level ≤ 5 := by omega
  have hapart := levelEnd_le h
  refine eq_of_testBit fun i => ?_
  rw [testBit_replaced hhigher, testBit_replaced hlevel, testBit_replaced hlevel,
    testBit_replaced hhigher]
  by_cases hin : levelShift higher ≤ i ∧ i < levelEnd higher
  · rw [if_pos hin, if_neg (by omega), if_pos hin]
  · rw [if_neg hin, if_neg hin]

/-- The page number of a level has nine bits, or fewer where the word ends. -/
theorem levelWidth_le (level : Nat) : levelEnd level - levelShift level ≤ 9 := by
  unfold levelEnd
  simp only [levelBits]
  omega

/-- **A page number is read back**, as far as the word has bits for it. -/
theorem pageIndex_withPageNumber (h : level ≤ 5) :
    (pageIndex level (address.withPageNumber level number).bits.toNat).val =
      number % 2 ^ (levelEnd level - levelShift level) := by
  have hwidth := levelWidth_le level
  refine Nat.eq_of_testBit_eq fun i => ?_
  rw [testBit_pageIndex, Nat.testBit_mod_two_pow]
  by_cases hin : i < levelEnd level - levelShift level
  · rw [testBit_replaced h, if_pos (by omega), Nat.add_sub_cancel_left, show 512 = 2 ^ 9 from rfl,
      Nat.testBit_mod_two_pow, decide_eq_true hin, decide_eq_true (by omega : i < 9)]
    rfl
  · rw [decide_eq_false hin, Bool.false_and]
    by_cases hi : i < 9
    · have hword : 64 ≤ levelShift level + i := by
        unfold levelEnd at hin
        simp only [levelBits] at hin
        omega
      rw [testBit_word _ hword, Bool.and_false]
    · rw [decide_eq_false hi, Bool.false_and]

/-- **Only the number that is there leaves the address as it is**, and it does. -/
theorem withPageNumber_eq_self_iff (h : level ≤ 5) :
    address.withPageNumber level number = address ↔
      number % 2 ^ (levelEnd level - levelShift level) =
        (pageIndex level address.bits.toNat).val := by
  refine ⟨fun hsame => by rw [← pageIndex_withPageNumber h, hsame], fun hheld => ?_⟩
  refine eq_of_testBit fun i => ?_
  rw [testBit_replaced h]
  split
  next hin =>
    have hwidth := levelWidth_le level
    have hbit := congrArg (fun n => n.testBit (i - levelShift level)) hheld
    simp only [testBit_pageIndex, Nat.testBit_mod_two_pow] at hbit
    rw [decide_eq_true (by omega), decide_eq_true (by omega), Bool.true_and, Bool.true_and,
      Nat.add_sub_cancel' hin.1] at hbit
    rw [show 512 = 2 ^ 9 from rfl, Nat.testBit_mod_two_pow, decide_eq_true (by omega), hbit,
      Bool.true_and]
  next => rfl

/-! ## 2. All page numbers and the offset -/

/-- Above an empty field and zeros below it, of a number the part that fits is added. -/
theorem toNat_withPageNumber_mod (h : level ≤ 2)
    (hbase : address.bits.toNat % 2 ^ levelShift (level + 1) = 0) (number : Nat) :
    (address.withPageNumber level number).bits.toNat =
      address.bits.toNat + number % 512 * 2 ^ levelShift level := by
  have hmod : address.withPageNumber level number =
      address.withPageNumber level (number % 512) := by
    refine eq_of_testBit fun i => ?_
    rw [testBit_replaced (by omega), testBit_replaced (by omega), Nat.mod_mod]
  rw [hmod, toNat_withPageNumber h hbase (Nat.mod_lt number (by decide))]

/-- **An address made of parts** is their sum. Of the page numbers the low nine bits count. -/
theorem toNat_ofParts {number₂ number₁ number₀ : Nat} {offset : UInt64}
    (h : number₂ % 512 * 2 ^ 30 + number₁ % 512 * 2 ^ 21 + number₀ % 512 * 2 ^ 12 + offset.toNat <
      2 ^ 64) :
    (ofParts number₂ number₁ number₀ offset).bits.toNat =
      number₂ % 512 * 2 ^ 30 + number₁ % 512 * 2 ^ 21 + number₀ % 512 * 2 ^ 12 + offset.toNat := by
  -- From the root's page number down, each one is put above zeros only.
  have htop : ((VAddr.mk 0).withPageNumber 2 number₂).bits.toNat = number₂ % 512 * 2 ^ 30 := by
    rw [toNat_withPageNumber_mod (by decide) rfl]
    exact Nat.zero_add _
  have hmiddle : (((VAddr.mk 0).withPageNumber 2 number₂).withPageNumber 1 number₁).bits.toNat =
      number₂ % 512 * 2 ^ 30 + number₁ % 512 * 2 ^ 21 := by
    rw [toNat_withPageNumber_mod (by decide) (by rw [htop]; exact Nat.mul_mod_left _ _), htop]
    rfl
  have hlast : ((((VAddr.mk 0).withPageNumber 2 number₂).withPageNumber 1 number₁).withPageNumber 0
      number₀).bits.toNat =
        number₂ % 512 * 2 ^ 30 + number₁ % 512 * 2 ^ 21 + number₀ % 512 * 2 ^ 12 := by
    rw [toNat_withPageNumber_mod (by decide) (by rw [hmiddle, levelShift_eq]; omega), hmiddle]
    rfl
  rw [ofParts, toNat_plus (by rw [hlast]; exact h), hlast]

/-- The parts of an address are smaller than what they count up to. -/
structure PartsFit (number₂ number₁ number₀ : Nat) (offset : UInt64) : Prop where
  top : number₂ < 512
  middle : number₁ < 512
  bottom : number₀ < 512
  offset : offset.toNat < 4096

variable {number₂ number₁ number₀ other₂ other₁ other₀ : Nat} {offset offset' : UInt64}

theorem PartsFit.toNat_ofParts (h : PartsFit number₂ number₁ number₀ offset) :
    (ofParts number₂ number₁ number₀ offset).bits.toNat =
      number₂ * 2 ^ 30 + number₁ * 2 ^ 21 + number₀ * 2 ^ 12 + offset.toNat := by
  obtain ⟨htop, hmiddle, hbottom, hoffset⟩ := h
  rw [VAddr.toNat_ofParts, Nat.mod_eq_of_lt htop, Nat.mod_eq_of_lt hmiddle,
    Nat.mod_eq_of_lt hbottom]
  omega

/-- **Addresses are in the order of their parts**, the root's page number first. -/
theorem PartsFit.lt_iff (h : PartsFit number₂ number₁ number₀ offset)
    (h' : PartsFit other₂ other₁ other₀ offset') :
    (ofParts number₂ number₁ number₀ offset).bits < (ofParts other₂ other₁ other₀ offset').bits ↔
      [number₂, number₁, number₀, offset.toNat] < [other₂, other₁, other₀, offset'.toNat] := by
  simp only [List.cons_lt_cons_iff, List.lt_irrefl, and_false, or_false]
  rw [UInt64.lt_iff_toNat_lt, h.toNat_ofParts, h'.toNat_ofParts]
  obtain ⟨htop, hmiddle, hbottom, hoffset⟩ := h
  obtain ⟨htop', hmiddle', hbottom', hoffset'⟩ := h'
  omega

/-- **Addresses with different parts are different.** -/
theorem PartsFit.eq_iff (h : PartsFit number₂ number₁ number₀ offset)
    (h' : PartsFit other₂ other₁ other₀ offset') :
    ofParts number₂ number₁ number₀ offset = ofParts other₂ other₁ other₀ offset' ↔
      number₂ = other₂ ∧ number₁ = other₁ ∧ number₀ = other₀ ∧ offset = offset' := by
  refine ⟨fun hsame => ?_, fun ⟨h₂, h₁, h₀, hoffset⟩ => by rw [h₂, h₁, h₀, hoffset]⟩
  have hsum := congrArg (fun address => address.bits.toNat) hsame
  simp only [h.toNat_ofParts, h'.toNat_ofParts] at hsum
  obtain ⟨htop, hmiddle, hbottom, hoffset⟩ := h
  obtain ⟨htop', hmiddle', hbottom', hoffset'⟩ := h'
  exact ⟨by omega, by omega, by omega, UInt64.toNat_inj.mp (by omega)⟩

/-- **Each page number of an address can be read and replaced by itself.** A number that is put at a
    level fills the bits of that level with its own, as many as there are, and leaves all other bits
    as they are, those of the offset among them; it is read back as far as there are bits for it. Of
    two numbers for one level the last one stays, numbers for two levels can be put in either order,
    and a number changes nothing exactly if it is the one that is there already. So an address made
    of parts is their sum, and if no part is greater than what it counts up to, addresses made of
    different parts are different, and in the order of their parts from the root's on. -/
theorem pageNumbers_independent :
    (∀ (address : VAddr) (level number : Nat), level ≤ 5 →
      (∀ i, (address.withPageNumber level number).bits.toNat.testBit i =
        if levelShift level ≤ i ∧ i < levelEnd level then
          (number % 512).testBit (i - levelShift level)
        else address.bits.toNat.testBit i) ∧
      pageOffset (address.withPageNumber level number).bits = pageOffset address.bits ∧
      (pageIndex level (address.withPageNumber level number).bits.toNat).val =
        number % 2 ^ (levelEnd level - levelShift level) ∧
      (∀ last, (address.withPageNumber level number).withPageNumber level last =
        address.withPageNumber level last) ∧
      (∀ other last, other ≤ 5 → other ≠ level →
        (address.withPageNumber level number).withPageNumber other last =
          (address.withPageNumber other last).withPageNumber level number) ∧
      (address.withPageNumber level number = address ↔
        number % 2 ^ (levelEnd level - levelShift level) =
          (pageIndex level address.bits.toNat).val)) ∧
    (∀ (number₂ number₁ number₀ : Nat) (offset : UInt64),
      number₂ % 512 * 2 ^ 30 + number₁ % 512 * 2 ^ 21 + number₀ % 512 * 2 ^ 12 + offset.toNat <
          2 ^ 64 →
        (ofParts number₂ number₁ number₀ offset).bits.toNat =
          number₂ % 512 * 2 ^ 30 + number₁ % 512 * 2 ^ 21 + number₀ % 512 * 2 ^ 12 +
            offset.toNat) ∧
    (∀ (number₂ number₁ number₀ other₂ other₁ other₀ : Nat) (offset offset' : UInt64),
      PartsFit number₂ number₁ number₀ offset → PartsFit other₂ other₁ other₀ offset' →
        (ofParts number₂ number₁ number₀ offset = ofParts other₂ other₁ other₀ offset' ↔
          number₂ = other₂ ∧ number₁ = other₁ ∧ number₀ = other₀ ∧ offset = offset') ∧
        ((ofParts number₂ number₁ number₀ offset).bits <
            (ofParts other₂ other₁ other₀ offset').bits ↔
          [number₂, number₁, number₀, offset.toNat] <
            [other₂, other₁, other₀, offset'.toNat])) := by
  refine ⟨fun address level number h => ⟨testBit_replaced h, pageOffset_withPageNumber h,
    pageIndex_withPageNumber h, withPageNumber_twice h, fun other last hother hne => ?_,
    withPageNumber_eq_self_iff h⟩, fun _ _ _ _ => toNat_ofParts,
    fun _ _ _ _ _ _ _ _ h h' => ⟨h.eq_iff h', h.lt_iff h'⟩⟩
  rcases Nat.lt_or_gt_of_ne hne with hlower | hhigher
  · exact (withPageNumber_comm h hlower number).symm
  · exact withPageNumber_comm hother hhigher last

/-- At the highest level, where the word has seven bits for the number, a wider number that ends in
    the bits that are there changes nothing; and the last byte under one entry of the root stands
    before the first one under the next. -/
theorem pageNumbers_independent_highest :
    (VAddr.mk 0x123456789ABCDEF0).withPageNumber 5 0x209 = ⟨0x123456789ABCDEF0⟩ ∧
      (pageIndex 5 ((VAddr.mk 0x123456789ABCDEF0).withPageNumber 5 0x1FF).bits.toNat).val = 0x7F ∧
      (ofParts 0x403 0x1FF 0x1FF 0x1000).bits.toNat = 0x100000000 ∧
      PartsFit 3 0x1FF 0x1FF 0xFFF ∧ PartsFit 4 0 0 0 ∧
      (ofParts 3 0x1FF 0x1FF 0xFFF).bits < (ofParts 4 0 0 0).bits := by
  obtain ⟨hlevels, hsum, hparts⟩ := pageNumbers_independent
  obtain ⟨-, -, -, -, -, hheld⟩ := hlevels ⟨0x123456789ABCDEF0⟩ 5 0x209 (by decide)
  obtain ⟨-, -, hread, -⟩ := hlevels ⟨0x123456789ABCDEF0⟩ 5 0x1FF (by decide)
  have hlast : PartsFit 3 0x1FF 0x1FF 0xFFF := ⟨by decide, by decide, by decide, by decide⟩
  have hfirst : PartsFit 4 0 0 0 := ⟨by decide, by decide, by decide, by decide⟩
  exact ⟨hheld.mpr (by decide), hread, hsum _ _ _ _ (by decide), hlast, hfirst,
    (hparts _ _ _ _ _ _ _ _ hlast hfirst).2.mpr (by decide)⟩

end VAddr

end KernelProbe
