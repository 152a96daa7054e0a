/-!
# Addresses

An address is a 64-bit word of the stopped kernel; the library never follows one itself. Addresses
and offsets that come from memory may be corrupt, so they are added and subtracted in the natural
numbers, and a result outside the address space is no address (`advance?`, `retreat?`).

Virtual and physical addresses are two types. A physical address is a page number of 44 bits and an
offset of twelve bits. An Sv39 virtual address is made of three page numbers of nine bits, the
highest one for the root table, and the offset; bit 38 is not extended into the bits above.

* `PAddr.ofPageNumber` -- the start of a physical page;
* `VAddr.withPageNumber` -- replaces the page number of one level;
* `VAddr.ofParts` -- composes an address;
* `levelShift`, `levelSpan` -- where the page number of a level begins, and the bytes that one entry
  of that level covers.
-/

namespace KernelProbe

/-- The address `offset` bytes after `base`, unless that lies beyond the address space. -/
def advance? (base : UInt64) (offset : Nat) : Option UInt64 :=
  if base.toNat + offset < UInt64.size then some (.ofNat (base.toNat + offset)) else none

/-- The address `offset` bytes before `base`, unless that lies below zero. -/
def retreat? (base : UInt64) (offset : Nat) : Option UInt64 :=
  if offset ≤ base.toNat then some (.ofNat (base.toNat - offset)) else none

/-- The bytes of a page. -/
abbrev pageSize : Nat := 4096

/-- The bits of an offset within a page. -/
abbrev pageShift : Nat := 12

/-- The bits of a virtual page number of one level. -/
abbrev levelBits : Nat := 9

/-- The greatest virtual page number of one level, whose bits are all set. -/
abbrev levelMask : Nat := 0x1FF

/-- The offset of an address within its page. -/
def pageOffset (address : UInt64) : UInt64 :=
  address % .ofNat pageSize

/-- The lowest bit of the page number of a level. -/
def levelShift (level : Nat) : Nat :=
  pageShift + levelBits * level

/-- The number of addresses that one table entry of a level covers. -/
def levelSpan (level : Nat) : UInt64 :=
  1 <<< UInt64.ofNat (levelShift level)

/-- A physical address. -/
structure PAddr where
  bits : UInt64
  deriving DecidableEq

/-- The address of the first byte of a physical page. -/
def PAddr.ofPageNumber (number : BitVec 44) : PAddr :=
  ⟨⟨number.setWidth 64 <<< pageShift⟩⟩

/-- A virtual address. -/
structure VAddr where
  bits : UInt64
  deriving DecidableEq

namespace VAddr

/-- The address with the page number of one level replaced. Of `number` the low nine bits count. -/
def withPageNumber (address : VAddr) (level number : Nat) : VAddr :=
  let shift := UInt64.ofNat (levelShift level)
  ⟨address.bits &&& ~~~(UInt64.ofNat levelMask <<< shift) |||
    UInt64.ofNat (number &&& levelMask) <<< shift⟩

/-- The address `count` bytes further on. -/
def plus (address : VAddr) (count : UInt64) : VAddr :=
  ⟨address.bits + count⟩

/-- The address with these page numbers, the root table's first, and this offset. -/
def ofParts (number₂ number₁ number₀ : Nat) (offset : UInt64) : VAddr :=
  ((((VAddr.mk 0).withPageNumber 2 number₂).withPageNumber 1 number₁).withPageNumber 0
    number₀).plus offset

end VAddr

end KernelProbe
