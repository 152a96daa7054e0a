import KernelProbe.Backtrace.Unwinder

/-!
# The roster of unwinders

Unwinders are asked in an order: the one registered last comes first. The first answer that is not a
refusal counts, be it a caller or a fault. One that is switched off is passed over. A name stands at most once in the roster; registering it
again either is refused or puts the new unwinder in place of the old one, at the front.

* `Roster.register` -- registers an unwinder;
* `Roster.unwind` -- asks the unwinders for the caller of a frame.
-/

namespace KernelProbe

/-- The registered unwinders in the order in which they are asked. -/
structure Roster where
  unwinders : List Unwinder

namespace Roster

/-- The roster without unwinders. -/
def empty : Roster :=
  ⟨[]⟩

/-- The names in the order of asking. -/
def names (roster : Roster) : List String :=
  roster.unwinders.map Unwinder.name

/-- Registers an unwinder at the front. One of the same name gives way if `replace` is set. -/
def register (roster : Roster) (unwinder : Unwinder) (replace : Bool) : Except Fault Roster :=
  if roster.names.contains unwinder.name && !replace then
    .error (.duplicateUnwinder unwinder.name)
  else .ok ⟨unwinder :: roster.unwinders.eraseP (·.name == unwinder.name)⟩

/-- Asks the unwinders of a list, one after the other. -/
def ask (target : Target) (registers : Registers) :
    List Unwinder → Outcome (Option Caller) × List Unwinder
  | [] => (.ofResult (.ok none), [])
  | unwinder :: later =>
    if unwinder.enabled then
      let (outcome, asked) := unwinder.unwind target registers
      match outcome.result with
      | .ok none =>
        let (next, later) := ask target registers later
        (⟨outcome.events ++ next.events, next.result⟩, asked :: later)
      | _ => (outcome, asked :: later)
    else
      let (outcome, later) := ask target registers later
      (outcome, unwinder :: later)

/-- Asks for the caller of a frame; none if every unwinder declines. -/
def unwind (target : Target) (registers : Registers) (roster : Roster) :
    Outcome (Option Caller) × Roster :=
  let (outcome, unwinders) := ask target registers roster.unwinders
  (outcome, ⟨unwinders⟩)

end Roster

end KernelProbe
