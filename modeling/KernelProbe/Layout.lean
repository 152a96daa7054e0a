import KernelProbe.Fault

/-!
# Type layouts

A layout says how the bytes of a type are to be read: as one number, as a pointer, as an array with
closed bounds, or as a structure whose fields lie at given offsets. Layouts come from outside; no
offset is known to the library beforehand. Other types are referred to by name, and a name is looked
up only when a value of that type is needed.

* `Layout.field` -- the first field of a name;
* `Layout.range` -- the bounds of an array.
-/

namespace KernelProbe

/-- A field of a structure: `offset` bytes from its start there is a value of the named type. -/
structure Field where
  name : String
  offset : UInt64
  type : String
  deriving DecidableEq

/-- How the bytes of a type are read. -/
inductive Kind where
  /-- A number. -/
  | scalar
  /-- An address of a value of the named type; zero stands for none. -/
  | pointer (target : String)
  /-- One element for each index from `low` to `high`, both included. -/
  | array (element : String) (low high : Int)
  /-- Fields at offsets from the start. -/
  | structure (fields : List Field)
  deriving DecidableEq

/-- A named type: its size in bytes, and how its bytes are read. -/
structure Layout where
  name : String
  size : UInt64
  kind : Kind
  deriving DecidableEq

namespace Layout

/-- A number of `size` bytes. -/
def scalar (name : String) (size : UInt64) : Layout :=
  ⟨name, size, .scalar⟩

/-- A pointer of eight bytes. -/
def pointer (name target : String) : Layout :=
  ⟨name, 8, .pointer target⟩

/-- An array with one element of `elementSize` bytes for each index from `low` to `high`. -/
def array (name element : String) (elementSize : UInt64) (low high : Int) : Layout :=
  ⟨name, elementSize * .ofNat (high - low + 1).toNat, .array element low high⟩

/-- A structure of `size` bytes. -/
def record (name : String) (size : UInt64) (fields : List Field) : Layout :=
  ⟨name, size, .structure fields⟩

/-- The first field of that name. -/
def field (layout : Layout) (name : String) : Except Fault Field :=
  match layout.kind with
  | .structure fields =>
    match fields.find? (·.name == name) with
    | some field => .ok field
    | none => .error (.noField layout.name name)
  | _ => .error (.notAStructure layout.name)

/-- The bounds of an array, both included. -/
def range (layout : Layout) : Except Fault (Int × Int) :=
  match layout.kind with
  | .array _ low high => .ok (low, high)
  | _ => .error (.notAnArray layout.name)

end Layout

end KernelProbe
