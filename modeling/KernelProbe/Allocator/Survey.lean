import KernelProbe.Allocator.Report
import KernelProbe.Config
import KernelProbe.Expression

/-!
# Surveying the bucket allocator

The directory of the allocator is an array of pointers, one slot for each size: 16 bytes for the
first slot, and twice as much for each further one. A slot points to the first descriptor of a
chain, or nowhere. Each descriptor counts the blocks in use of its page (`refcnt`) and points to the
next.

Chains may be corrupt, so they are followed for a limited number of descriptors. Whatever goes wrong
first, in the order of slots and along their chains, is the answer; there is no partial report.

* `surveyChain` -- the sums along one chain;
* `surveyAllocator` -- the report over all slots.
-/

namespace KernelProbe

/-- Adds a chain to `usage`. Of the `limit` descriptors that a chain may have, `left` are not yet
    used up. -/
def surveyChain (target : Target) (slot : Value) (limit : Nat) :
    (left : Nat) → Option Value → Usage → Except Fault Usage
  | _, none, usage => .ok usage
  | 0, some _, _ => do
    let head ← slot.word target
    throw (.chainTooLong head limit)
  | left + 1, some descriptor, usage => do
    let items ← descriptor.fieldWord target "refcnt"
    let next ← (← descriptor.field target "next").follow target
    surveyChain target slot limit left next
      { usage with items := usage.items + items, pages := usage.pages + 1 }

/-- The binary logarithm of the smallest size of a block. -/
abbrev minBlockLog2 : Nat := 4

/-- The size of the blocks of a slot, by its position in the directory. -/
def blockSize (position : Nat) : UInt64 :=
  1 <<< UInt64.ofNat (minBlockLog2 + position)

/-- Adds the slots from `position` on to `report`: `count` of them, the first at index `index`. -/
def surveySlots (target : Target) (limit : Nat) (directory : Value) :
    (count : Nat) → (position : Nat) → (index : Int) → Report → Except Fault Report
  | 0, _, _, report => .ok report
  | count + 1, position, index, report => do
    let slot ← directory.index target index
    match ← slot.follow target with
    | none => surveySlots target limit directory count (position + 1) (index + 1) report
    | some first =>
      let usage ← surveyChain target slot limit limit (some first) ⟨blockSize position, 0, 0⟩
      surveySlots target limit directory count (position + 1) (index + 1) (report.add usage)

/-- The report of the allocator whose directory the configuration names. -/
def surveyAllocator (target : Target) (config : Config) : Except Fault Report := do
  let directory ← target.evaluate config.bucketDirectorySymbol
  let (low, high) ← directory.layout.range
  surveySlots target config.maxChainNodes directory (high - low + 1).toNat 0 low .empty

end KernelProbe
