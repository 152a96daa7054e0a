import KernelProbe.Address

/-!
# The paging register

The register `satp` names the root of the page tables in force: bits 0-43 hold the root's physical
page number, bits 44-59 an address-space number that plays no part here, bits 60-63 the paging mode.

* `Satp.mode`, `Satp.pageNumber` -- the two fields;
* `Satp.root` -- the physical address of the root table.
-/

namespace KernelProbe

/-- A value of the paging register. -/
structure Satp where
  bits : UInt64
  deriving DecidableEq

namespace Satp

/-- The paging modes, by the number in bits 60-63. -/
inductive Mode where
  | bare
  | sv39
  | sv48
  | sv57
  | reserved (number : Nat)
  deriving DecidableEq

/-- The mode that a number stands for. -/
def Mode.ofNat : Nat → Mode
  | 0 => .bare
  | 8 => .sv39
  | 9 => .sv48
  | 10 => .sv57
  | number => .reserved number

/-- The name of a mode; a reserved one is shown by its number. -/
def Mode.text : Mode → String
  | .bare => "Bare"
  | .sv39 => "Sv39"
  | .sv48 => "Sv48"
  | .sv57 => "Sv57"
  | .reserved number => "reserved(" ++ toString number ++ ")"

/-- The paging mode. -/
def mode (satp : Satp) : Mode :=
  .ofNat (satp.bits >>> 60).toNat

/-- The physical page number of the root table. -/
def pageNumber (satp : Satp) : BitVec 44 :=
  satp.bits.toBitVec.setWidth 44

/-- The physical address of the root table. -/
def root (satp : Satp) : PAddr :=
  .ofPageNumber satp.pageNumber

end Satp

end KernelProbe
