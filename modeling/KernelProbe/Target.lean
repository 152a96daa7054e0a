import KernelProbe.Layout

/-!
# The view of a stopped kernel

All that the library knows of a kernel it learns from four look-ups: registers of the selected
frame, bytes of memory, global symbols and type layouts. A `Target` is what they answer at one
moment. A look-up either has an answer or has none; where an operation needs an answer that is
missing, the fault says which one (`Target.symbol` and the others). That the debugger behind a
target reports a missing answer with this fault and no other is assumed of every debugger
(`Host.NamesMissing`).

* `Target` -- the four look-ups;
* `littleEndian` -- the number that bytes stand for.
-/

namespace KernelProbe

/-- A global symbol: where it lies and what type it was declared with. -/
structure Symbol where
  address : UInt64
  type : String
  deriving DecidableEq

/-- Register values by name. -/
abbrev Registers := String → Option UInt64

/-- What can be read of a stopped kernel at one moment. -/
structure Target where
  /-- The registers of the selected frame. -/
  register? : Registers
  /-- The `length` bytes from an address on. -/
  memory? : UInt64 → (length : Nat) → Option (Vector UInt8 length)
  /-- The global symbols. -/
  symbol? : String → Option Symbol
  /-- The type layouts. -/
  layout? : String → Option Layout

/-- The answer of a look-up, or the fault that its absence is. -/
def demand {α : Type} (answer : Option α) (fault : Fault) : Except Fault α :=
  match answer with
  | some a => .ok a
  | none => .error fault

/-- A register that must have a value. -/
def Registers.read (registers : Registers) (name : String) : Except Fault UInt64 :=
  demand (registers name) (.registerUnavailable name)

namespace Target

/-- A register that must have a value. -/
def register (target : Target) (name : String) : Except Fault UInt64 :=
  Registers.read target.register? name

/-- Bytes that must be readable. -/
def memory (target : Target) (address : UInt64) (length : Nat) :
    Except Fault (Vector UInt8 length) :=
  demand (target.memory? address length) (.memoryUnavailable address length)

/-- A symbol that must exist. -/
def symbol (target : Target) (name : String) : Except Fault Symbol :=
  demand (target.symbol? name) (.noSymbol name)

/-- A type that must exist. -/
def layout (target : Target) (name : String) : Except Fault Layout :=
  demand (target.layout? name) (.noType name)

end Target

/-- The number whose bytes these are, the lowest first. Of more than eight bytes the first eight
    count. -/
def littleEndian : List UInt8 → UInt64
  | [] => 0
  | byte :: rest => byte.toUInt64 + 256 * littleEndian rest

end KernelProbe
