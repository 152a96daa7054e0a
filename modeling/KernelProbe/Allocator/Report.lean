import KernelProbe.Address
import KernelProbe.Text.Hex
import KernelProbe.Text.Kilobytes

/-!
# Use of the bucket allocator

The kernel's allocator hands out blocks of a few fixed sizes. Each size has a chain of descriptors,
and each descriptor manages one page of blocks of that size.

* `Usage` -- what is in use of one size;
* `Report` -- all sizes in use, with the totals;
* `Report.text` -- the report as it is shown.
-/

namespace KernelProbe

open Text (alignRight kilobytes)

/-- The blocks of one size: how many are handed out, and how many pages they lie in. -/
structure Usage where
  size : UInt64
  items : UInt64
  pages : UInt64
  deriving DecidableEq

/-- The use of the whole allocator: the sizes that have pages, by ascending size. -/
structure Report where
  usages : List Usage
  totalBytes : UInt64
  totalPages : UInt64
  deriving DecidableEq

namespace Report

/-- The report of an allocator without pages. -/
def empty : Report :=
  ⟨[], 0, 0⟩

/-- The report with one more size. -/
def add (report : Report) (usage : Usage) : Report :=
  ⟨report.usages ++ [usage], report.totalBytes + usage.items * usage.size,
    report.totalPages + usage.pages⟩

/-- The line of one size. -/
def usageLine (usage : Usage) : String :=
  "\t" ++ alignRight 4 (toString usage.size.toNat) ++ "B\t" ++
    alignRight 4 (toString usage.items.toNat) ++ "\n"

/-- A heading, a line for each size, and the totals in blocks and in pages. -/
def text (report : Report) : String :=
  "malloc info:\n\tsize:\tnum:\n" ++ String.join (report.usages.map usageLine) ++
    "malloced memory: " ++ kilobytes report.totalBytes ++ "KB\n" ++
    "malloc page used: " ++ toString report.totalPages.toNat ++ " (" ++
    kilobytes (report.totalPages * .ofNat pageSize) ++ "KB)"

end Report

end KernelProbe
