import KernelProbe.Target

/-!
# Memory made of regions

The memory of an image is a set of regions, each some bytes from a start address on. An address
belongs to the region with the greatest start that is not above it, and only to that one: bytes can
be read or written together if they lie within the region of the first of them. A read never joins
two regions.

* `Memory.read?` -- bytes within one region;
* `Memory.write` -- puts bytes there;
* `Memory.Edit` -- a change of a memory.
-/

namespace KernelProbe

/-- Bytes from a start address on. -/
structure Region where
  start : UInt64
  bytes : Array UInt8
  deriving DecidableEq

/-- The regions of a memory, no two of them with the same start. -/
structure Memory where
  regions : List Region
  deriving DecidableEq

namespace Memory

/-- The memory without regions. -/
def empty : Memory :=
  ⟨[]⟩

/-- The region among `regions` that an address belongs to. -/
def regionOf (address : UInt64) : List Region → Option Region
  | [] => none
  | region :: rest =>
    match regionOf address rest with
    | none => if region.start ≤ address then some region else none
    | some other =>
      if region.start ≤ address ∧ other.start < region.start then some region else some other

/-- The region that an address belongs to. -/
def region? (memory : Memory) (address : UInt64) : Option Region :=
  regionOf address memory.regions

/-- The `length` bytes from an address on, if they lie within the region of that address. -/
def read? (memory : Memory) (address : UInt64) (length : Nat) : Option (Vector UInt8 length) :=
  match memory.region? address with
  | none => none
  | some region =>
    let offset := (address - region.start).toNat
    if h : offset + length ≤ region.bytes.size then
      some ⟨region.bytes.extract offset (offset + length), by simp; omega⟩
    else none

/-- The memory without the region that starts at an address. -/
def unmap (memory : Memory) (start : UInt64) : Memory :=
  ⟨memory.regions.filter (·.start != start)⟩

/-- The memory with a region of zeros, in place of one with the same start. -/
def map (memory : Memory) (start : UInt64) (length : Nat) : Memory :=
  ⟨⟨start, Array.replicate length 0⟩ :: (memory.unmap start).regions⟩

/-- Puts bytes into an array from an offset on, as far as it reaches. -/
def overwrite (offset : Nat) : List UInt8 → Array UInt8 → Array UInt8
  | [], bytes => bytes
  | byte :: rest, bytes => overwrite (offset + 1) rest (bytes.setIfInBounds offset byte)

/-- Puts bytes into the region with a given start. -/
def overwriteRegion (start : UInt64) (offset : Nat) (new : List UInt8) :
    List Region → List Region
  | [] => []
  | ⟨first, bytes⟩ :: rest =>
    if first = start then ⟨first, overwrite offset new bytes⟩ :: rest
    else ⟨first, bytes⟩ :: overwriteRegion start offset new rest

/-- The memory with bytes put from an address on. What the region of that address does not hold is
    dropped. -/
def write (memory : Memory) (address : UInt64) (bytes : List UInt8) : Memory :=
  match (memory.region? address).map Region.start with
  | none => memory
  | some start => ⟨overwriteRegion start (address - start).toNat bytes memory.regions⟩

/-- The eight bytes of a word, the lowest first. -/
def wordBytes (word : UInt64) : List UInt8 :=
  [word.toUInt8, (word >>> 8).toUInt8, (word >>> 16).toUInt8, (word >>> 24).toUInt8,
    (word >>> 32).toUInt8, (word >>> 40).toUInt8, (word >>> 48).toUInt8, (word >>> 56).toUInt8]

/-- Puts `count` words from an address on, each by `step` greater than the one before. -/
def fill (address : UInt64) : (count : Nat) → (word step : UInt64) → Memory → Memory
  | 0, _, _, memory => memory
  | count + 1, word, step, memory =>
    fill (address + 8) count (word + step) step (memory.write address (wordBytes word))

/-- A change of a memory. -/
inductive Edit where
  /-- Removes the region with this start. -/
  | unmap (start : UInt64)
  /-- Adds a region of zeros. -/
  | map (start : UInt64) (length : Nat)
  /-- Puts words at equal distances from each other, one behind the other. -/
  | fill (address : UInt64) (count : Nat) (word step : UInt64)
  /-- Puts bytes. -/
  | write (address : UInt64) (bytes : List UInt8)
  deriving DecidableEq

/-- The memory after a change. -/
def apply (memory : Memory) : Edit → Memory
  | .unmap start => memory.unmap start
  | .map start length => memory.map start length
  | .fill address count word step => fill address count word step memory
  | .write address bytes => memory.write address bytes

end Memory

end KernelProbe
