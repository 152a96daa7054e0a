import KernelProbe.Satp
import KernelProbe.Paging.Entry
import KernelProbe.Intrusive.Embedding

/-!
# Events

Beside its answer an operation has a trail: the events that happened on the way, in order. Most
events are lines of a log, each with a severity; two kinds are no lines, the switching of the
physical addressing mode and the reading of a page table.

* `Event` -- what can happen;
* `Event.line?` -- the log line of an event;
* `Outcome` -- an answer with its trail.
-/

namespace KernelProbe

open Text (hex)

/-- How much a log line matters. -/
inductive Severity where
  | warn
  | info
  | debug
  | trace
  deriving DecidableEq

namespace Severity

/-- The severities by falling weight. -/
def rank : Severity → Nat
  | .warn => 1
  | .info => 2
  | .debug => 3
  | .trace => 4

/-- The word that opens a log line. -/
def label : Severity → String
  | .warn => "WARN"
  | .info => "INFO"
  | .debug => "DEBUG"
  | .trace => "TRACE"

end Severity

/-- What can happen while an operation runs. -/
inductive Event where
  /-- An unwinder was registered. -/
  | unwinderRegistered (name : String)
  /-- The unwinding of stack frames is ready. -/
  | frameHelpersLoaded
  /-- The memory commands are ready. -/
  | memoryHelpersLoaded
  /-- A symbol was looked up once and for all. -/
  | symbolResolved (symbol : String) (address : UInt64)
  /-- A container was registered. -/
  | containerRegistered (address : UInt64) (container : Container)
  /-- A registration replaced an earlier one. -/
  | containerReplaced (address : UInt64)
  /-- An element of the wrong type was left out of a listing. -/
  | elementSkipped (expected found : String)
  /-- The page tables are not in the mode that they are read as. -/
  | modeNotSv39 (mode : Satp.Mode)
  /-- The kernel stayed in physical addressing mode. -/
  | physicalModeKept (fault : Fault)
  /-- A valid entry of a page table was looked at. -/
  | entryVisited (table : PAddr) (level index : Nat) (entry : Entry)
  /-- A page table was read, or an attempt was made to. -/
  | tableRead (address : PAddr)
  /-- Physical addressing was asked to be on or off. -/
  | physicalModeAsked (physical : Bool)
  deriving DecidableEq

namespace Event

/-- The severity and the text of an event that is a log line. -/
def line? : Event → Option (Severity × String)
  | .unwinderRegistered name => some (.debug, "registering global " ++ name ++ " unwinder")
  | .frameHelpersLoaded => some (.info, "stack frame helpers loaded")
  | .memoryHelpersLoaded => some (.info, "memory helpers loaded")
  | .symbolResolved symbol address => some (.debug, symbol ++ " resolved to " ++ hex address)
  | .containerRegistered address ⟨kind, embedding⟩ =>
    some (.debug, "container at " ++ hex address ++ ": " ++ kind.label ++ " of " ++
      embedding.layout.name ++ " via " ++ embedding.member ++ " (+" ++ hex embedding.offset ++ ")")
  | .containerReplaced address => some (.debug, "container at " ++ hex address ++ " re-registered")
  | .elementSkipped expected found =>
    some (.warn, "skipping element: expected " ++ expected ++ ", found " ++ found)
  | .modeNotSv39 mode =>
    some (.warn, "satp mode is " ++ mode.text ++ ", walking the table as Sv39 anyway")
  | .physicalModeKept fault =>
    some (.warn, "failed to leave physical memory mode: " ++ fault.message)
  | .entryVisited table level index entry =>
    some (.trace, "pt " ++ hex table.bits ++ " level " ++ toString level ++ " [" ++
      toString index ++ "] = " ++ hex entry.bits)
  | .tableRead _ => none
  | .physicalModeAsked _ => none

/-- The log lines among events, as far as they are at least as severe as `least`. -/
def log (least : Severity) (events : List Event) : List String :=
  events.filterMap fun event =>
    match event.line? with
    | some (severity, text) =>
      if severity.rank ≤ least.rank then some (severity.label ++ " " ++ text) else none
    | none => none

/-- What the physical addressing mode was asked to be, in order. -/
def modesAsked (events : List Event) : List Bool :=
  events.filterMap fun
    | .physicalModeAsked physical => some physical
    | _ => none

end Event

/-- The answer of an operation, with the events on the way to it. -/
structure Outcome (α : Type) where
  events : Array Event
  result : Except Fault α

/-- An answer without events. -/
def Outcome.ofResult {α : Type} (result : Except Fault α) : Outcome α :=
  ⟨#[], result⟩

end KernelProbe
