import KernelProbe.Address

/-!
# Page-table entries

An entry of an Sv39 page table is a 64-bit word: ten flag bits at the low end, a physical page
number of 44 bits above them, and ten reserved bits that mean nothing here.

An entry without the flag V maps nothing, whatever its other bits. With V, an entry that grants
reading, writing or execution is a leaf and maps memory; any other points to the next table.

* `Flags` -- the ten flag bits, with the permission among them;
* `Entry.kind` -- what an entry says.
-/

namespace KernelProbe

/-- The number of flag bits in an entry. -/
abbrev flagBits : Nat := 10

/-- The first bit of an entry above its physical page number. -/
abbrev entryPageNumberEnd : Nat := 54

/-- The flag bits of an entry: from bit 0 on V, R, W, X, U, G, A, D, and two bits left to
    software. -/
structure Flags where
  bits : BitVec flagBits
  deriving DecidableEq

namespace Flags

/-- The low ten bits of a word. -/
def ofWord (word : UInt64) : Flags :=
  ⟨word.toBitVec.setWidth flagBits⟩

/-- The flags as a word. -/
def toWord (flags : Flags) : UInt64 :=
  ⟨flags.bits.setWidth 64⟩

def valid (flags : Flags) : Bool := flags.bits.getLsbD 0
def readable (flags : Flags) : Bool := flags.bits.getLsbD 1
def writable (flags : Flags) : Bool := flags.bits.getLsbD 2
def executable (flags : Flags) : Bool := flags.bits.getLsbD 3
def user (flags : Flags) : Bool := flags.bits.getLsbD 4

/-- Whether the flags grant any access at all. -/
def grantsAccess (flags : Flags) : Bool :=
  flags.readable || flags.writable || flags.executable

/-- The flags that neighbouring mappings must share to be shown as one: V, R, W, X and U. -/
def permission (flags : Flags) : Flags :=
  ⟨flags.bits &&& 0x1F⟩

/-- The privilege level, then the three kinds of access, with a dash for each that is missing. -/
def privilege (flags : Flags) : String :=
  String.ofList
    [if flags.user then 'U' else 'S', ' ', if flags.executable then 'X' else '-',
      if flags.writable then 'W' else '-', if flags.readable then 'R' else '-']

end Flags

/-- A page-table entry. -/
structure Entry where
  bits : UInt64
  deriving DecidableEq

namespace Entry

/-- What an entry says. -/
inductive Kind where
  /-- Nothing is mapped. -/
  | invalid
  /-- The next table lies at this address. -/
  | table (address : PAddr)
  /-- Memory at this address is mapped. -/
  | leaf (address : PAddr) (flags : Flags)
  deriving DecidableEq

/-- The flags of an entry. -/
def flags (entry : Entry) : Flags :=
  .ofWord entry.bits

/-- The physical page number of an entry. -/
def pageNumber (entry : Entry) : BitVec 44 :=
  entry.bits.toBitVec.extractLsb' flagBits (entryPageNumberEnd - flagBits)

/-- The address of the physical page that an entry names. -/
def address (entry : Entry) : PAddr :=
  .ofPageNumber entry.pageNumber

/-- What an entry says. -/
def kind (entry : Entry) : Kind :=
  if entry.flags.valid then
    if entry.flags.grantsAccess then .leaf entry.address entry.flags
    else .table entry.address
  else .invalid

end Entry

end KernelProbe
