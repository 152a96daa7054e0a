import KernelProbe.Paging.Entry
import KernelProbe.Target

/-!
# Page tables

A page table is one page of memory, read at once: 512 entries of eight bytes, the lowest byte of
each first.

* `Table.read` -- the table at a physical address.
-/

namespace KernelProbe

/-- The bytes of an entry. -/
abbrev entrySize : Nat := 8

/-- The entries of a table. -/
abbrev entriesPerTable : Nat := pageSize / entrySize

/-- A page table as it was when it was read. -/
structure Table where
  address : PAddr
  entries : Vector Entry entriesPerTable

namespace Table

/-- The bytes of every entry lie within the page. -/
theorem byte_lt (index : Fin entriesPerTable) (k : Fin entrySize) :
    entrySize * index.val + k.val < pageSize := by
  have := index.isLt
  have := k.isLt
  simp only [entriesPerTable, entrySize, pageSize] at *
  omega

/-- The word in the eight bytes of an entry, the lowest byte first. -/
def wordAt (page : Vector UInt8 pageSize) (index : Fin entriesPerTable) : UInt64 :=
  Fin.foldr entrySize
    (fun k rest => (page.get ⟨entrySize * index.val + k.val, byte_lt index k⟩).toUInt64 +
      256 * rest) 0

/-- The table in a page of memory. -/
def ofPage (address : PAddr) (page : Vector UInt8 pageSize) : Table :=
  ⟨address, .ofFn fun index => ⟨wordAt page index⟩⟩

/-- Reads the page at a physical address as a table. -/
def read (target : Target) (address : PAddr) : Except Fault Table := do
  return ofPage address (← target.memory address.bits pageSize)

end Table

end KernelProbe
