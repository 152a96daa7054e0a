import KernelProbe.Value

/-!
# Frames saved by a trap

When a trap enters the kernel, the registers of the interrupted code are saved on the stack: a block
`gpr` with the 32 general registers, and the control registers `status`, `epc` and `cause`. The
frame is read through the layouts, field by field; no offset or width is known beforehand.

* `SavedFrame.read` -- the whole frame, or the first fault;
* `SavedFrame.readCause` -- the cause alone, which needs no other field;
* `SavedFrame.general?` -- a general register by its name.
-/

namespace KernelProbe

/-- The names of the general registers, by register number. -/
def generalNames : Vector String 32 :=
  #v["zero", "ra", "sp", "gp", "tp", "t0", "t1", "t2", "s0", "s1", "a0", "a1", "a2", "a3", "a4",
    "a5", "a6", "a7", "s2", "s3", "s4", "s5", "s6", "s7", "s8", "s9", "s10", "s11", "t3", "t4",
    "t5", "t6"]

/-- The registers that a trap saved, as they were when the frame was read. -/
structure SavedFrame where
  /-- The general registers, by register number. -/
  general : Vector UInt64 32
  status : UInt64
  /-- The address of the interrupted instruction. -/
  epc : UInt64
  cause : UInt64
  deriving DecidableEq

namespace SavedFrame

/-- Reads the frame at an address, as a structure of the named type. -/
def read (target : Target) (address : UInt64) (type : String) : Except Fault SavedFrame := do
  let frame ← target.valueAt address type
  let block ← frame.field target "gpr"
  let general ← generalNames.mapM fun name => block.fieldWord target name
  let status ← frame.fieldWord target "status"
  let epc ← frame.fieldWord target "epc"
  let cause ← frame.fieldWord target "cause"
  return ⟨general, status, epc, cause⟩

/-- Reads only the cause of the frame at an address. -/
def readCause (target : Target) (address : UInt64) (type : String) : Except Fault UInt64 := do
  (← target.valueAt address type).fieldWord target "cause"

/-- The stack pointer of the interrupted code. -/
def sp (frame : SavedFrame) : UInt64 :=
  frame.general[2]

/-- The frame pointer of the interrupted code. -/
def fp (frame : SavedFrame) : UInt64 :=
  frame.general[8]

/-- A general register by its name. -/
def general? (frame : SavedFrame) (name : String) : Option UInt64 :=
  (generalNames.finIdxOf? name).map fun number => frame.general[number]

end SavedFrame

end KernelProbe
