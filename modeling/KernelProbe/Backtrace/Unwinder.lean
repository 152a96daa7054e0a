import KernelProbe.Backtrace.SavedFrame
import KernelProbe.Config
import KernelProbe.Event

/-!
# Unwinding stack frames

To show the callers of a frame a debugger needs the registers that each caller had. Across a trap
they are in the frame that the trap saved: where a frame stands at the instruction that returns from
a trap, its stack pointer points to that saved frame. The trap unwinder claims such frames and
restores the interrupted code's registers from there; it declines every other frame without reading
the stack.

The address of the returning instruction is looked up once. From then on it is known, even if the
symbol moves.

Other unwinders may do as they like. What one does can depend on all that it was asked before, so
it matters whether it was asked or not.

* `TrapUnwinder.unwind` -- one frame, with the unwinder as it is afterwards;
* `Unwinder` -- the trap unwinder, or one with behaviour of its own;
* `Unwinder.unwind` -- one frame again, with either of them.
-/

namespace KernelProbe

/-- What tells the frames of one backtrace apart. -/
structure FrameId where
  sp : UInt64
  pc : UInt64
  deriving DecidableEq

/-- The frame of a caller: its identity, and the registers it had, each name once. -/
structure Caller where
  id : FrameId
  registers : List (String × UInt64)
  deriving DecidableEq

/-- The general registers that a caller has under their own names, but for the stack pointer, which
    is restored apart. The frame pointer has another name. -/
def restoredNames : List String :=
  ["zero", "ra", "gp", "tp", "t0", "t1", "t2", "t3", "t4", "t5", "t6", "a0", "a1", "a2", "a3", "a4",
    "a5", "a6", "a7", "s1", "s2", "s3", "s4", "s5", "s6", "s7", "s8", "s9", "s10", "s11"]

/-- The interrupted code as the caller. Its program counter is the interrupted instruction; the
    frame pointer stands for `s0`; the control registers have the names of the supervisor level. -/
def SavedFrame.caller (frame : SavedFrame) : Caller :=
  let restored := restoredNames.filterMap fun name =>
    (frame.general? name).map fun word => (name, word)
  ⟨⟨frame.sp, frame.epc⟩,
    ("pc", frame.epc) :: ("sp", frame.sp) :: ("fp", frame.fp) ::
      restored ++ [("sstatus", frame.status), ("scause", frame.cause), ("sepc", frame.epc)]⟩

/-- The unwinder of traps. -/
structure TrapUnwinder where
  /-- The symbol of the instruction that returns from a trap. -/
  returnSymbol : String
  /-- The type of the saved frame. -/
  frameType : String
  /-- The address of that instruction, once it is known. -/
  returnAddress : Option UInt64
  deriving DecidableEq

namespace TrapUnwinder

/-- The name under which the trap unwinder is registered. -/
def defaultName : String := "trap-frame-unwinder"

/-- The trap unwinder for a kernel, with nothing looked up yet. -/
def of (config : Config) : TrapUnwinder :=
  ⟨config.trapReturnSymbol, config.trapFrameType, none⟩

/-- The caller of a frame, if the frame stands at `returnAddress`. -/
def callerAt (target : Target) (frameType : String) (registers : Registers)
    (returnAddress : UInt64) : Except Fault (Option Caller) := do
  let pc ← registers.read "pc"
  if pc = returnAddress then
    let sp ← registers.read "sp"
    return some (← SavedFrame.read target sp frameType).caller
  else return none

/-- Unwinds a frame, or declines it. -/
def unwind (target : Target) (registers : Registers) (unwinder : TrapUnwinder) :
    Outcome (Option Caller) × TrapUnwinder :=
  match unwinder.returnAddress with
  | some address => (.ofResult (callerAt target unwinder.frameType registers address), unwinder)
  | none =>
    match target.symbol unwinder.returnSymbol with
    | .error fault => (.ofResult (.error fault), unwinder)
    | .ok symbol =>
      (⟨#[.symbolResolved unwinder.returnSymbol symbol.address],
        callerAt target unwinder.frameType registers symbol.address⟩,
        { unwinder with returnAddress := some symbol.address })

end TrapUnwinder

/-- A frame to unwind: the kernel as it is at that moment, and the registers of the frame. -/
structure Pending where
  target : Target
  registers : Registers

/-- What an unwinder does, by the frames that it was asked to unwind before, the latest first. -/
structure Behaviour where
  /-- Whether it is switched on. -/
  enabled : List Pending → Bool
  /-- What it answers to a frame. -/
  answer : List Pending → Pending → Except Fault (Option Caller)

/-- An unwinder with the name under which it is registered. -/
inductive Unwinder where
  /-- The trap unwinder; it is always enabled. -/
  | trap (name : String) (unwinder : TrapUnwinder)
  /-- One with behaviour of its own, and the frames that it was asked to unwind so far. -/
  | other (name : String) (behaviour : Behaviour) (asked : List Pending)

namespace Unwinder

/-- An unwinder that answers by a function of the kernel and the frame's registers alone. -/
def custom (name : String) (enabled : Bool)
    (answer : Target → Registers → Except Fault (Option Caller)) : Unwinder :=
  .other name ⟨fun _ => enabled, fun _ frame => answer frame.target frame.registers⟩ []

def name : Unwinder → String
  | .trap name _ => name
  | .other name _ _ => name

def enabled : Unwinder → Bool
  | .trap _ _ => true
  | .other _ behaviour asked => behaviour.enabled asked

/-- Unwinds a frame, or declines it, and gives the unwinder as it is afterwards. -/
def unwind (target : Target) (registers : Registers) :
    Unwinder → Outcome (Option Caller) × Unwinder
  | .trap name unwinder =>
    let (outcome, after) := unwinder.unwind target registers
    (outcome, .trap name after)
  | .other name behaviour asked =>
    (.ofResult (behaviour.answer asked ⟨target, registers⟩),
      .other name behaviour (⟨target, registers⟩ :: asked))

end Unwinder

end KernelProbe
