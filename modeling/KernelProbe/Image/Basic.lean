import KernelProbe.Debuggee
import KernelProbe.Image.Memory

/-!
# Images of a stopped kernel

An image is a kernel held in memory: tables of registers, symbols and layouts, a memory, and
possibly a second memory that is seen in physical addressing mode. Without a second one both modes
see the same. An image can be told to refuse the change into or out of physical mode.

* `Image.view` -- the image as a target;
* `Image.Edit`, `Image.apply` -- changes of an image.
-/

namespace KernelProbe

/-- A stopped kernel held in memory. -/
structure Image where
  registers : List (String × UInt64)
  symbols : List (String × Symbol)
  layouts : List (String × Layout)
  memory : Memory
  /-- What physical mode sees, if that is another memory. -/
  physical : Option Memory
  physicalMode : Bool
  /-- The fault that answers an attempt to enter physical mode. -/
  enterFault : Option Fault
  /-- The fault that answers an attempt to leave physical mode. -/
  leaveFault : Option Fault

namespace Image

/-- The image that holds nothing but layouts. -/
def ofLayouts (layouts : List (String × Layout)) : Image :=
  ⟨[], [], layouts, .empty, none, false, none, none⟩

/-- The memory that reads see. -/
def seenMemory (image : Image) : Memory :=
  if image.physicalMode then image.physical.getD image.memory else image.memory

/-- The image as a target. -/
def view (image : Image) : Target where
  register? name := image.registers.lookup name
  memory? := image.seenMemory.read?
  symbol? name := image.symbols.lookup name
  layout? name := image.layouts.lookup name

/-- Asks for physical mode, or for normal mode. A refusal leaves the mode as it is. -/
def setPhysical (physical : Bool) (image : Image) : Except Fault Unit × Image :=
  match if physical then image.enterFault else image.leaveFault with
  | some fault => (.error fault, image)
  | none => (.ok (), { image with physicalMode := physical })

/-- A table with the entry of a name set, or removed if there is no value. -/
def assign {α : Type} (name : String) (value : Option α) (table : List (String × α)) :
    List (String × α) :=
  let others := table.filter (·.1 != name)
  match value with
  | some a => (name, a) :: others
  | none => others

/-- A change of an image. -/
inductive Edit where
  /-- Adds a layout under its own name, or replaces the one of that name. -/
  | layout (layout : Layout)
  /-- Removes the layout of a name. -/
  | dropLayout (name : String)
  /-- Makes a name stand for the layout of another name; the layout keeps its own. -/
  | sameLayout (name existing : String)
  /-- Sets a register, or removes it. -/
  | register (name : String) (value : Option UInt64)
  /-- Sets a symbol, or removes it. -/
  | symbol (name : String) (symbol : Option Symbol)
  /-- Changes the memory. -/
  | memory (edit : Memory.Edit)
  /-- Makes physical mode see a memory of its own. -/
  | separatePhysical
  /-- Changes the memory of physical mode. -/
  | physical (edit : Memory.Edit)
  /-- Sets the fault that answers an attempt to enter physical mode. -/
  | enterFault (fault : Option Fault)
  /-- Sets the fault that answers an attempt to leave physical mode. -/
  | leaveFault (fault : Option Fault)
  deriving DecidableEq

/-- The image after a change. -/
def apply (image : Image) : Edit → Image
  | .layout layout => { image with layouts := assign layout.name (some layout) image.layouts }
  | .dropLayout name => { image with layouts := assign name none image.layouts }
  | .sameLayout name existing =>
    { image with layouts := assign name (image.layouts.lookup existing) image.layouts }
  | .register name value => { image with registers := assign name value image.registers }
  | .symbol name symbol => { image with symbols := assign name symbol image.symbols }
  | .memory edit => { image with memory := image.memory.apply edit }
  | .separatePhysical => { image with physical := some (image.physical.getD .empty) }
  | .physical edit => { image with physical := some ((image.physical.getD .empty).apply edit) }
  | .enterFault fault => { image with enterFault := fault }
  | .leaveFault fault => { image with leaveFault := fault }

end Image

instance : Debuggee Image where
  view := Image.view
  setPhysical := Image.setPhysical

end KernelProbe
