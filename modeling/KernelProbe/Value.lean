import KernelProbe.Address
import KernelProbe.Target

/-!
# Typed places in memory

A `Value` is an address and the layout by which the bytes there are to be read. Making one reads
nothing; `word`, `follow` and `bytes` read, and see the memory as it is at that moment.

Addresses are computed without wrap-around: a member, an element or an owner that would lie outside
the address space is memory that cannot be read, and the fault names the place where the step
started.

* `Value.field`, `Value.index` -- the places inside a structure or an array;
* `Value.word`, `Value.fieldWord` -- the number in a scalar or pointer, and in a member;
* `Value.follow` -- the place that a pointer leads to, none for the null pointer.
-/

namespace KernelProbe

/-- An address, and the layout of what is there. -/
structure Value where
  address : UInt64
  layout : Layout
  deriving DecidableEq

/-- The place at `address`, read as the named type. -/
def Target.valueAt (target : Target) (address : UInt64) (type : String) : Except Fault Value := do
  return ⟨address, ← target.layout type⟩

namespace Value

/-- The name of the layout, which is the type's own name. -/
def type (value : Value) : String :=
  value.layout.name

/-- The same place, read by another layout. -/
def cast (value : Value) (layout : Layout) : Value :=
  ⟨value.address, layout⟩

/-- The fault of memory that the whole of `value` lies in. -/
def unavailable (value : Value) : Fault :=
  .memoryUnavailable value.address value.layout.size.toNat

/-- The address `offset` bytes into `value`. -/
def inside (value : Value) (offset : Nat) : Except Fault UInt64 :=
  demand (advance? value.address offset) value.unavailable

/-- The member of a structure. -/
def field (target : Target) (value : Value) (name : String) : Except Fault Value := do
  let field ← value.layout.field name
  let address ← value.inside field.offset.toNat
  target.valueAt address field.type

/-- The element of an array, by its declared index. -/
def index (target : Target) (value : Value) (index : Int) : Except Fault Value :=
  match value.layout.kind with
  | .array element low high =>
    if index < low ∨ high < index then
      .error (.indexOutOfRange value.type index low high)
    else do
      let element ← target.layout element
      let address ← value.inside ((index - low).toNat * element.size.toNat)
      return ⟨address, element⟩
  | _ => .error (.notAnArray value.type)

/-- The number in a scalar or pointer of one, two, four or eight bytes, lowest byte first. -/
def word (target : Target) (value : Value) : Except Fault UInt64 :=
  let size := value.layout.size
  let readable := size = 1 ∨ size = 2 ∨ size = 4 ∨ size = 8
  match value.layout.kind with
  | .scalar | .pointer _ =>
    if readable then do
      return littleEndian (← target.memory value.address size.toNat).toList
    else .error (.unsupportedWidth value.type size)
  | _ => .error (.unsupportedWidth value.type size)

/-- The number in a member of a structure. -/
def fieldWord (target : Target) (value : Value) (name : String) : Except Fault UInt64 := do
  (← value.field target name).word target

/-- The place that a pointer leads to; the null pointer leads nowhere. -/
def follow (target : Target) (value : Value) : Except Fault (Option Value) :=
  match value.layout.kind with
  | .pointer pointee => do
    let address ← value.word target
    if address = 0 then return none
    return some (← target.valueAt address pointee)
  | _ => .error (.notAPointer value.type)

/-- All bytes of the value. -/
def bytes (target : Target) (value : Value) : Except Fault (List UInt8) := do
  return (← target.memory value.address value.layout.size.toNat).toList

end Value

end KernelProbe
