import KernelProbe.Allocator.Survey
import KernelProbe.Backtrace.Frame
import KernelProbe.Backtrace.Roster
import KernelProbe.Intrusive.Listing
import KernelProbe.Paging.Dump
import KernelProbe.Session.Command

/-!
# Sessions

A session is what outlives a single question about the kernel: the settings, the roster of
unwinders, the filter of frames and the catalogue of containers. The kernel itself is no part of it;
every operation is given the kernel as it is at that moment, and none writes to it.

* `Session.start`, `Session.startEvents` -- a new session, and what is logged of it;
* `Session.unwind`, `Session.backtrace` -- the frames of a backtrace;
* `Session.allocatorReport`, `Session.dumpPages`, `Session.registerContainer` -- the three commands;
* `Session.execute` -- a line of text as one of them.
-/

namespace KernelProbe

open Text (hex)

/-- The state of a session. -/
structure Session where
  config : Config
  roster : Roster
  filter : FrameFilter
  catalogue : Catalogue

namespace Session

/-- A new session; it has the trap unwinder. -/
def start (config : Config) : Session :=
  ⟨config, ⟨[.trap TrapUnwinder.defaultName (.of config)]⟩, {}, .empty⟩

/-- What is logged of a new session. -/
def startEvents : List Event :=
  [.unwinderRegistered TrapUnwinder.defaultName, .frameHelpersLoaded, .memoryHelpersLoaded]

/-- Registers an unwinder. -/
def addUnwinder (session : Session) (unwinder : Unwinder) (replace : Bool) :
    Outcome Unit × Session :=
  match session.roster.register unwinder replace with
  | .error fault => (.ofResult (.error fault), session)
  | .ok roster => (⟨#[.unwinderRegistered unwinder.name], .ok ()⟩, { session with roster })

/-- The caller of the frame with these registers. -/
def unwind (session : Session) (target : Target) (registers : Registers) :
    Outcome (Option Caller) × Session :=
  let (outcome, roster) := session.roster.unwind target registers
  (outcome, { session with roster })

/-- The frames of a backtrace as they are shown. -/
def backtrace (session : Session) (frames : List Frame) : List Frame :=
  session.filter.apply session.config frames

/-- The report of the bucket allocator as text. -/
def allocatorReport (session : Session) (target : Target) : Except Fault String :=
  (surveyAllocator target session.config).map Report.text

/-- The dump of the address space as text. -/
def dumpPages {σ : Type} [Debuggee σ] (session : Session) (state : σ) : Outcome String × σ :=
  KernelProbe.dumpPages session.config.satpRegister state

/-- Registers the container that an expression names, and says at which address it was found. -/
def registerContainer (session : Session) (target : Target) (expression owner member : String) :
    Outcome String × Session :=
  match target.evaluate expression with
  | .error fault => (.ofResult (.error fault), session)
  | .ok value =>
    match session.catalogue.register target session.config value owner member with
    | .error fault => (.ofResult (.error fault), session)
    | .ok registration =>
      let address := match value.layout.kind with
        | .pointer _ => value.word target
        | _ => .ok value.address
      let text := address.map fun address => hex address ++ ": " ++ value.type ++ " of " ++ owner
      (⟨registration.events, text⟩, { session with catalogue := registration.catalogue })

/-- The listing of a value at the address of a registered container. -/
def listing? (session : Session) (value : Value) : Option Listing :=
  session.catalogue.listing? value

/-- Carries out a line of text, and gives its answer with the session and the kernel afterwards. -/
def execute {σ : Type} [Debuggee σ] (session : Session) (state : σ) (line : String) :
    Outcome String × Session × σ :=
  match Command.parse line with
  | .blank => (.ofResult (.ok ""), session, state)
  | .allocator => (.ofResult (session.allocatorReport (Debuggee.view state)), session, state)
  | .pages =>
    let (outcome, state) := session.dumpPages state
    (outcome, session, state)
  | .container expression owner member =>
    let (outcome, session) :=
      session.registerContainer (Debuggee.view state) expression owner member
    (outcome, session, state)
  | .misused synopsis => (.ofResult (.error (.usage synopsis)), session, state)
  | .unknown word => (.ofResult (.error (.unknownCommand word)), session, state)

end Session

end KernelProbe
