import KernelProbe.Backtrace.SavedFrame
import KernelProbe.Config
import KernelProbe.TrapCause

/-!
# Frames as a backtrace shows them

A backtrace shows of each frame its function, its arguments and its source file. The frame of the
function that traps enter the kernel through says little by itself; it is shown under a label, and
its one argument is the cause of the trap, read from the saved frame that its stack pointer points
to. All other frames, and all that is known of a frame beside function and arguments, stay as they
are.

The arguments are read anew whenever they are shown, since the kernel may have changed.

* `Frame` -- what can be asked of a frame;
* `Frame.relabelled` -- a frame as it is shown;
* `FrameFilter` -- relabels all frames, unless it is switched off.
-/

namespace KernelProbe

open Text (hex)

/-- A named argument, with a remark on its value. -/
structure Argument where
  symbol : String
  value : UInt64
  note : Option String
  deriving DecidableEq

/-- The name, the value and the remark. -/
def Argument.text (argument : Argument) : String :=
  let plain := argument.symbol ++ "=" ++ hex argument.value
  match argument.note with
  | some note => plain ++ " (" ++ note ++ ")"
  | none => plain

/-- A stack frame, by what can be asked of it. -/
structure Frame where
  /-- The symbol of the function that the frame is in. -/
  name : Option String
  registers : Registers
  /-- The function as it is shown. -/
  function : Option String
  /-- The arguments as they are shown. -/
  arguments : Target → Except Fault (List Argument)
  /-- The path of the source file. -/
  file : Option String

namespace Frame

/-- A frame whose function is shown under its own symbol. -/
def plain (name : Option String) (registers : Registers)
    (arguments : Target → Except Fault (List Argument)) (file : Option String) : Frame :=
  ⟨name, registers, name, arguments, file⟩

/-- Whether a frame is in the function that traps enter the kernel through. -/
def isTrapEntry (config : Config) (frame : Frame) : Bool :=
  frame.name == some config.trapEntrySymbol

/-- The cause of the trap whose saved frame the stack pointer points to, as the only argument. -/
def causeArgument (config : Config) (registers : Registers) (target : Target) :
    Except Fault (List Argument) := do
  let sp ← registers.read "sp"
  let cause ← SavedFrame.readCause target sp config.trapFrameType
  return [⟨"scause", cause, (TrapCause.mk cause).description⟩]

/-- A frame as a backtrace shows it. -/
def relabelled (config : Config) (frame : Frame) : Frame :=
  if frame.isTrapEntry config then
    { frame with
      function := some config.trapEntryLabel
      arguments := causeArgument config frame.registers }
  else frame

end Frame

/-- The filter that relabels the frames of a backtrace. -/
structure FrameFilter where
  name : String := "trap-frame-filter"
  /-- Of several filters the one with the highest priority comes first. -/
  priority : Int := 42
  enabled : Bool := true
  deriving DecidableEq

/-- The frames of a backtrace as they are shown. -/
def FrameFilter.apply (filter : FrameFilter) (config : Config) (frames : List Frame) :
    List Frame :=
  if filter.enabled then frames.map (Frame.relabelled config) else frames

end KernelProbe
