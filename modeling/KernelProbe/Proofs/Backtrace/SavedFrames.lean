import KernelProbe.Backtrace.SavedFrame
import KernelProbe.Proofs.Value.Numbers
import KernelProbe.Proofs.Value.Rows

/-!
# Reading a saved frame

A saved frame is read number by number: the general registers in the order of their numbers, then
the control registers. The reading succeeds if every number can be read, and gives them all; else it
gives the fault of the first one that cannot.

* `SavedFrame.reads` -- the numbers of a saved frame, in the order in which they are read;
* `SavedFrame.read_eq_ok`, `SavedFrame.read_eq_error` -- what reading the frame gives.
-/

namespace KernelProbe

/-! ## The numbers of a saved frame -/

namespace SavedFrame

variable {target : Target} {address : UInt64} {type : String} {saved : SavedFrame} {fault : Fault}

/-- The members that hold the control registers. -/
def controlNames : List String :=
  ["status", "epc", "cause"]

/-- **The numbers of a saved frame**, in the order in which they are read: those of the general
    registers from the block of the frame, those of the control registers from the frame itself. -/
def reads (target : Target) (frame block : Value) : List (Except Fault UInt64) :=
  generalNames.toList.map (block.fieldWord target) ++ controlNames.map (frame.fieldWord target)

/-- All numbers of a saved frame, in the same order. -/
def words (saved : SavedFrame) : List UInt64 :=
  saved.general.toList ++ [saved.status, saved.epc, saved.cause]

theorem reads_eq_words {frame block : Value} :
    reads target frame block = saved.words.map .ok ↔
      generalNames.toList.map (block.fieldWord target) = saved.general.toList.map .ok ∧
      frame.fieldWord target "status" = .ok saved.status ∧
      frame.fieldWord target "epc" = .ok saved.epc ∧
      frame.fieldWord target "cause" = .ok saved.cause := by
  unfold reads words controlNames
  rw [List.map_append]
  constructor
  · intro h
    obtain ⟨hgeneral, hcontrol⟩ := List.append_inj h (by simp)
    simp only [List.map_cons, List.map_nil, List.cons.injEq] at hcontrol
    obtain ⟨hstatus, hepc, hcause, -⟩ := hcontrol
    exact ⟨hgeneral, hstatus, hepc, hcause⟩
  · intro ⟨hgeneral, hstatus, hepc, hcause⟩
    simp only [hgeneral, List.map_cons, List.map_nil, hstatus, hepc, hcause]

/-- **A saved frame that can be read** is the one whose numbers are all there. -/
theorem read_eq_ok : read target address type = .ok saved ↔
    ∃ frame block, target.valueAt address type = .ok frame ∧ frame.field target "gpr" = .ok block ∧
      reads target frame block = saved.words.map .ok := by
  unfold read
  simp only [bind_eq_ok, vector_mapM_eq_ok, reads_eq_words]
  constructor
  · intro ⟨frame, hframe, block, hblock, general, hgeneral, status, hstatus, epc, hepc, cause,
      hcause, h⟩
    cases h
    exact ⟨frame, block, hframe, hblock, hgeneral, hstatus, hepc, hcause⟩
  · intro ⟨frame, block, hframe, hblock, hgeneral, hstatus, hepc, hcause⟩
    exact ⟨frame, hframe, block, hblock, saved.general, hgeneral, saved.status, hstatus, saved.epc,
      hepc, saved.cause, hcause, rfl⟩

/-- **A saved frame that cannot be read** gives the fault of its first number that cannot. -/
theorem read_eq_error : read target address type = .error fault ↔
    target.valueAt address type = .error fault ∨
    ∃ frame, target.valueAt address type = .ok frame ∧
      (frame.field target "gpr" = .error fault ∨
      ∃ block, frame.field target "gpr" = .ok block ∧
        FirstFault (reads target frame block) fault) := by
  have hnumbers : ∀ frame block : Value,
      (do
        let general ← generalNames.mapM fun name => block.fieldWord target name
        let status ← frame.fieldWord target "status"
        let epc ← frame.fieldWord target "epc"
        let cause ← frame.fieldWord target "cause"
        return SavedFrame.mk general status epc cause) = .error fault ↔
      FirstFault (reads target frame block) fault := by
    intro frame block
    refine bind_mapM_eq_firstFault fun general => bind_eq_firstFault fun status =>
      bind_eq_firstFault fun epc => bind_eq_firstFault fun cause => ?_
    constructor
    · intro h
      cases h
    · intro h
      exact absurd h not_firstFault_nil
  unfold read
  simp only [bind_eq_error, hnumbers]

/-- All numbers can be read if their members hold numbers. -/
theorem forall_reads {frame block : Value} :
    (∀ answer ∈ reads target frame block, ∃ word, answer = .ok word) ↔
      (∀ name ∈ generalNames, ∃ word, block.Holds target name word) ∧
      ∀ name ∈ controlNames, ∃ word, frame.Holds target name word := by
  simp only [reads, List.forall_mem_append, List.forall_mem_map, Vector.mem_toList_iff,
    Value.fieldWord_eq_ok]

/-- **Where every number can be read**, the saved frame can. -/
theorem exists_read {frame block : Value} (hframe : target.valueAt address type = .ok frame)
    (hblock : frame.field target "gpr" = .ok block)
    (hall : ∀ answer ∈ reads target frame block, ∃ word, answer = .ok word) :
    ∃ saved, read target address type = .ok saved := by
  cases hread : read target address type with
  | ok saved => exact ⟨saved, rfl⟩
  | error fault =>
    rcases read_eq_error.mp hread with h | ⟨frame', hframe', h⟩
    · cases hframe.symm.trans h
    · cases hframe.symm.trans hframe'
      rcases h with h | ⟨block', hblock', hfirst⟩
      · cases hblock.symm.trans h
      · cases hblock.symm.trans hblock'
        obtain ⟨word, hword⟩ := hall _ hfirst.mem
        cases hword

end SavedFrame

end KernelProbe
