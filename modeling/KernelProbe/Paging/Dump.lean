import KernelProbe.Debuggee
import KernelProbe.Paging.Range

/-!
# The dump of an address space

The dump shows the address space in force: the root of the page tables is taken from the paging
register, the tables are walked in physical addressing mode, and every range of mapped memory is one
line. The mode is left again on every way out, also when the walk fails; a failure to
leave it is only noted.

* `Range.lines` -- the lines for the tables under a root;
* `dumpPages` -- the whole dump.
-/

namespace KernelProbe

/-- The lines of the ranges that are mapped by the tables under `root`, read as Sv39 tables. -/
def Range.lines (target : Target) (root : PAddr) : Outcome (Array String) :=
  Traversal.fold target
    (fun lines item => Outcome.ofResult (item.map fun range => lines.push range.text))
    #[] #[] (Joining.of (Walk.unread root))

/-- The dump of the address space that the named paging register selects. -/
def dumpPages {σ : Type} [Debuggee σ] (register : String) (s : σ) : Outcome String × σ :=
  match (Debuggee.view s).register register with
  | .error fault => (⟨#[], .error fault⟩, s)
  | .ok bits =>
    let satp : Satp := ⟨bits⟩
    let entering := (if satp.mode = .sv39 then #[] else #[.modeNotSv39 satp.mode]).push
      (.physicalModeAsked true)
    match Debuggee.setPhysical true s with
    | (.error fault, s) => (⟨entering, .error fault⟩, s)
    | (.ok (), s) =>
      let lines := Range.lines (Debuggee.view s) satp.root
      let leaving := (entering ++ lines.events).push (.physicalModeAsked false)
      let text := lines.result.map fun lines => "\n".intercalate lines.toList
      match Debuggee.setPhysical false s with
      | (.ok (), s) => (⟨leaving, text⟩, s)
      | (.error fault, s) => (⟨leaving.push (.physicalModeKept fault), text⟩, s)

end KernelProbe
