import KernelProbe.Target

/-!
# Kernels with a switchable addressing mode

Page tables hold physical addresses, so they are read while the kernel is in physical addressing
mode, in which every address of a memory read is a physical one. Switching the mode changes the
state of the debuggee and may fail.

* `Debuggee` -- the states of a kernel that can be viewed and switched.
-/

namespace KernelProbe

/-- The states of a stopped kernel under a debugger. -/
class Debuggee (σ : Type) where
  /-- What can be read in a state. -/
  view : σ → Target
  /-- Asks for physical addressing to be on or off. -/
  setPhysical : Bool → σ → Except Fault Unit × σ

end KernelProbe
