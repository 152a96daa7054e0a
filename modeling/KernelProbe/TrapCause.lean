import KernelProbe.Text.Hex

/-!
# Trap causes

The register `scause` tells why the kernel was entered: the highest bit separates interrupts from
exceptions, the other bits number the cause. The privileged architecture names some of the numbers;
the others are left to platforms.

* `TrapCause.description` -- the standard name, where there is one;
* `TrapCause.text` -- the word, followed by its name in parentheses.
-/

namespace KernelProbe

open Text (hex)

/-- A value of the trap-cause register. -/
structure TrapCause where
  bits : UInt64
  deriving DecidableEq

namespace TrapCause

/-- The names of the standard interrupts, by number. -/
def interruptNames : List (Nat × String) :=
  [(1, "supervisor software interrupt"),
   (5, "supervisor timer interrupt"),
   (9, "supervisor external interrupt"),
   (13, "counter overflow interrupt")]

/-- The names of the standard exceptions, by number. -/
def exceptionNames : List (Nat × String) :=
  [(0, "instruction address misaligned"),
   (1, "instruction access fault"),
   (2, "illegal instruction"),
   (3, "breakpoint"),
   (4, "load address misaligned"),
   (5, "load access fault"),
   (6, "store/AMO address misaligned"),
   (7, "store/AMO access fault"),
   (8, "environment call from U-mode"),
   (9, "environment call from S-mode"),
   (12, "instruction page fault"),
   (13, "load page fault"),
   (15, "store/AMO page fault"),
   (18, "software check"),
   (19, "hardware error")]

/-- Whether the trap is an interrupt and not an exception: bit 63. -/
def isInterrupt (cause : TrapCause) : Bool :=
  cause.bits >>> 63 == 1

/-- The number of the cause: bits 0-62. -/
def code (cause : TrapCause) : UInt64 :=
  cause.bits &&& 0x7FFFFFFFFFFFFFFF

/-- The standard name of the cause; a number that the architecture leaves open has none. -/
def description (cause : TrapCause) : Option String :=
  (if cause.isInterrupt then interruptNames else exceptionNames).lookup cause.code.toNat

/-- The word in hexadecimal, with its name where it has one. -/
def text (cause : TrapCause) : String :=
  match cause.description with
  | some name => hex cause.bits ++ " (" ++ name ++ ")"
  | none => hex cause.bits

end TrapCause

end KernelProbe
