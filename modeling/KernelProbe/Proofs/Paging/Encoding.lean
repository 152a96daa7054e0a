import KernelProbe.Proofs.Paging.Translation
import KernelProbe.Satp

/-!
# Entries and the paging register, by their parts

An entry is a word of three parts: reserved bits, a page number, flags. The paging register is one
of three others: the mode, a number for the address space, the root's page number. Here such words
are put together by sums, as the hardware describes them, and what is decoded is compared with what
they were put together from. The parts that mean nothing here change nothing, everything else can be
told from the decoded entry, and the register and an entry that name one page lead to one address.

* `Entry.ofFields`, `Satp.ofFields` -- words put together from parts;
* `Entry.ofFields_decoded` -- an entry put together again from what was decoded;
* `Entry.isLeaf_iff` -- which words are leaves;
* `Entry.decoding_inverts_layout` -- decoding and putting together are inverse to each other.
-/

namespace KernelProbe

/-- The paging register with this mode, number of the address space and root's page number. -/
def Satp.ofFields (mode space number : Nat) : Satp :=
  ⟨.ofNat (mode * 2 ^ 60 + space * 2 ^ 44 + number)⟩

theorem Satp.toNat_root (satp : Satp) :
    satp.root.bits.toNat = satp.bits.toNat % 2 ^ 44 * 2 ^ 12 := by
  rw [root, PAddr.toNat_ofPageNumber]
  exact congrArg (· * 2 ^ 12) (BitVec.toNat_setWidth _ _)

namespace Entry

/-- The entry with these reserved bits, page number and flags. -/
def ofFields (reserved number flags : Nat) : Entry :=
  ⟨.ofNat (reserved * 2 ^ 54 + number * 2 ^ 10 + flags)⟩

/-- An entry that maps memory. -/
def IsLeaf (entry : Entry) : Prop :=
  ∃ physical flags, entry.kind = .leaf physical flags

variable {entry other : Entry} {reserved number flags : Nat}

/-! ## 1. What is decoded from a word put together -/

theorem toNat_ofFields (hreserved : reserved < 2 ^ 10) (hnumber : number < 2 ^ 44)
    (hflags : flags < 2 ^ 10) :
    (ofFields reserved number flags).bits.toNat =
      reserved * 2 ^ 54 + number * 2 ^ 10 + flags :=
  UInt64.toNat_ofNat_of_lt' (show _ < 2 ^ 64 by omega)

theorem flags_ofFields (hreserved : reserved < 2 ^ 10) (hnumber : number < 2 ^ 44)
    (hflags : flags < 2 ^ 10) : (ofFields reserved number flags).flags.bits.toNat = flags := by
  rw [toNat_flags, toNat_ofFields hreserved hnumber hflags]
  omega

theorem address_ofFields (hreserved : reserved < 2 ^ 10) (hnumber : number < 2 ^ 44)
    (hflags : flags < 2 ^ 10) :
    (ofFields reserved number flags).address.bits.toNat = number * 2 ^ 12 := by
  rw [toNat_address, toNat_ofFields hreserved hnumber hflags, wordAddress]
  omega

/-- **The register and an entry that name one page** lead to one address. -/
theorem root_ofFields {mode space : Nat} (hreserved : reserved < 2 ^ 10) (hnumber : number < 2 ^ 44)
    (hflags : flags < 2 ^ 10) (hmode : mode < 2 ^ 4) (hspace : space < 2 ^ 16) :
    (Satp.ofFields mode space number).root = (ofFields reserved number flags).address := by
  have hword : (Satp.ofFields mode space number).bits.toNat =
      mode * 2 ^ 60 + space * 2 ^ 44 + number :=
    UInt64.toNat_ofNat_of_lt' (show _ < 2 ^ 64 by omega)
  refine PAddr.eq_of_toNat ?_
  rw [address_ofFields hreserved hnumber hflags, Satp.toNat_root, hword]
  omega

/-! ## 2. What can be told from what is decoded -/

/-- The bits of an entry below the reserved ones, by what is decoded. -/
theorem decoded_eq (entry : Entry) :
    entry.address.bits.toNat / 2 ^ 12 * 2 ^ 10 + entry.flags.bits.toNat =
      entry.bits.toNat % 2 ^ 54 := by
  rw [toNat_address, toNat_flags, wordAddress]
  omega

/-- **Put together again**, an entry is as before but for its reserved bits, which are clear. -/
theorem ofFields_decoded (entry : Entry) :
    ofFields 0 (entry.address.bits.toNat / 2 ^ 12) entry.flags.bits.toNat =
      ⟨.ofNat (entry.bits.toNat % 2 ^ 54)⟩ := by
  rw [← decoded_eq, ofFields, Nat.zero_mul, Nat.zero_add]

/-- **The reserved bits say nothing.** -/
theorem kind_congr (h : entry.bits.toNat % 2 ^ 54 = other.bits.toNat % 2 ^ 54) :
    entry.kind = other.kind := by
  have hflags : entry.flags = other.flags := by
    refine Flags.eq_of_toNat ?_
    rw [toNat_flags, toNat_flags]
    omega
  have haddress : entry.address = other.address := by
    refine PAddr.eq_of_toNat ?_
    rw [toNat_address, toNat_address, wordAddress, wordAddress]
    omega
  rw [kind, kind, hflags, haddress]

theorem isLeaf_iff : entry.IsLeaf ↔ entry.bits.toNat % 2 = 1 ∧ entry.bits.toNat / 2 % 8 ≠ 0 :=
  ⟨fun ⟨_, _, h⟩ => (kind_eq_leaf.mp h).1, fun h => ⟨_, _, kind_eq_leaf.mpr ⟨h, rfl, rfl⟩⟩⟩

theorem kind_eq_invalid : entry.kind = .invalid ↔ entry.bits.toNat % 2 = 0 := by
  rw [kind_eq]
  split
  next hvalid => exact iff_of_true rfl hvalid
  next hvalid => split <;> exact iff_of_false (fun h => nomatch h) hvalid

/-- **Leaves that say the same** are the same but for their reserved bits. -/
theorem IsLeaf.eq_of_kind (hleaf : entry.IsLeaf) (h : entry.kind = other.kind) :
    entry.bits.toNat % 2 ^ 54 = other.bits.toNat % 2 ^ 54 := by
  obtain ⟨physical, flags, hkind⟩ := hleaf
  obtain ⟨-, haddress, hflags⟩ := kind_eq_leaf.mp hkind
  obtain ⟨-, haddress', hflags'⟩ := kind_eq_leaf.mp (h.symm.trans hkind)
  rw [← decoded_eq, ← decoded_eq, haddress, hflags, haddress', hflags']

/-- **Decoding and putting together are inverse to each other.** From an entry put together from
    parts its flags and the start of its page are decoded, whatever the reserved bits are; and where
    the paging register names that page, whatever mode and address space it names with it, its root
    is there. Every entry, put together again from what is decoded, is the same without its reserved
    bits. So what an entry says does not depend on these, and leaves with other bits below say
    something else. Without V (bit 0) an entry is not valid and says nothing; with V it is a leaf
    exactly if it has R, W or X (bits 1 to 3). -/
theorem decoding_inverts_layout :
    (∀ reserved number flags, reserved < 2 ^ 10 → number < 2 ^ 44 → flags < 2 ^ 10 →
      (ofFields reserved number flags).flags.bits.toNat = flags ∧
      (ofFields reserved number flags).address.bits.toNat = number * 2 ^ 12 ∧
      ∀ mode space, mode < 2 ^ 4 → space < 2 ^ 16 →
        (Satp.ofFields mode space number).root = (ofFields reserved number flags).address) ∧
    (∀ entry : Entry,
      ofFields 0 (entry.address.bits.toNat / 2 ^ 12) entry.flags.bits.toNat =
        ⟨.ofNat (entry.bits.toNat % 2 ^ 54)⟩) ∧
    (∀ entry other : Entry, entry.bits.toNat % 2 ^ 54 = other.bits.toNat % 2 ^ 54 →
      entry.kind = other.kind) ∧
    (∀ entry other : Entry, entry.IsLeaf → other.IsLeaf →
      entry.bits.toNat % 2 ^ 54 ≠ other.bits.toNat % 2 ^ 54 → entry.kind ≠ other.kind) ∧
    ∀ entry : Entry,
      (entry.kind = .invalid ↔ entry.bits.toNat.testBit 0 = false) ∧
      (entry.bits.toNat.testBit 0 = true → (entry.IsLeaf ↔
        entry.bits.toNat.testBit 1 = true ∨ entry.bits.toNat.testBit 2 = true ∨
          entry.bits.toNat.testBit 3 = true)) := by
  refine ⟨fun reserved number flags hreserved hnumber hflags =>
    ⟨flags_ofFields hreserved hnumber hflags, address_ofFields hreserved hnumber hflags,
      fun mode space hmode hspace => root_ofFields hreserved hnumber hflags hmode hspace⟩,
    ofFields_decoded, fun entry other => kind_congr,
    fun entry other hleaf _ hne hsame => hne (hleaf.eq_of_kind hsame), fun entry => ?_⟩
  simp only [Nat.testBit_eq_decide_div_mod_eq, decide_eq_true_eq, decide_eq_false_iff_not]
  rw [kind_eq_invalid, isLeaf_iff]
  exact ⟨by omega, fun hvalid => by omega⟩

/-- The greatest page number, with all reserved bits set: the register that names the page has the
    address of the entry, the entry says the same without the reserved bits, and something else
    without the bit A. -/
theorem decoding_inverts_layout_greatest :
    (ofFields 0x3FF 0xFFFFFFFFFFF 0x0CF).address.bits.toNat = 0xFFFFFFFFFFF000 ∧
      (Satp.ofFields 8 0xFFFF 0xFFFFFFFFFFF).root =
        (ofFields 0x3FF 0xFFFFFFFFFFF 0x0CF).address ∧
      (ofFields 0x3FF 0xFFFFFFFFFFF 0x0CF).kind = (ofFields 0 0xFFFFFFFFFFF 0x0CF).kind ∧
      (ofFields 0x3FF 0xFFFFFFFFFFF 0x0CF).kind ≠ (ofFields 0x3FF 0xFFFFFFFFFFF 0x08F).kind := by
  obtain ⟨hfields, -, hsame, hother, -⟩ := decoding_inverts_layout
  obtain ⟨-, haddress, hroot⟩ :=
    hfields 0x3FF 0xFFFFFFFFFFF 0x0CF (by decide) (by decide) (by decide)
  exact ⟨haddress, hroot 8 0xFFFF (by decide) (by decide), hsame _ _ (by decide),
    hother _ _ (isLeaf_iff.mpr (by decide)) (isLeaf_iff.mpr (by decide)) (by decide)⟩

end Entry

end KernelProbe
