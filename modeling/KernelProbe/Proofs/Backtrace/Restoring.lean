import KernelProbe.Proofs.Backtrace.ReturnAddress
import KernelProbe.Proofs.Backtrace.SavedFrames

/-!
# What is restored across a trap

A frame that stands at the returning instruction is unwound as a whole or not at all. Its caller has
36 registers, and each of them is the number that one member of the saved frame holds: a general
register that of its own name, the frame pointer that of `s0`, the others those of the control
registers. Where one of the numbers cannot be read there is no caller, only the fault of the first
read that fails.

* `SavedAt`, `Intact` -- the saved frame that a frame points to, and whether it is all there;
* `FirstFailing` -- the first read that fails;
* `Origin`, `Restores` -- where the registers of a caller come from;
* `TrapUnwinder.restores_whole` -- the whole frame is restored, or there is a fault.
-/

namespace KernelProbe

/-! ## 1. The registers of a caller -/

/-- A table with each name once gives to a name what stands beside it. -/
theorem lookup_eq_some_iff_mem {table : List (String × UInt64)} {name : String} {word : UInt64}
    (honce : (table.map Prod.fst).Nodup) :
    table.lookup name = some word ↔ (name, word) ∈ table := by
  rw [List.lookup_eq_some_iff, List.mem_iff_append]
  constructor
  · intro ⟨before, later, h, _⟩
    exact ⟨before, later, h⟩
  · intro ⟨before, later, h⟩
    refine ⟨before, later, h, fun entry hentry => ?_⟩
    rw [h, List.map_append, List.nodup_append] at honce
    have hne := honce.2.2 entry.1 (List.mem_map_of_mem hentry) name (by simp)
    simpa using hne.symm

theorem map_fst_filterMap {names : List String} {value : String → Option UInt64}
    (h : ∀ name ∈ names, ∃ word, value name = some word) :
    (names.filterMap fun name => (value name).map fun word => (name, word)).map Prod.fst =
      names := by
  induction names with
  | nil => rfl
  | cons name names ih =>
    obtain ⟨⟨word, hword⟩, hrest⟩ := List.forall_mem_cons.mp h
    simp [hword, ih hrest]

/-- **Where a register of the caller comes from**: the structure, and the member of it. -/
inductive Origin (frame block : Value) : String → Value → String → Prop where
  | general {name : String} (hname : name ∈ generalNames) (hother : name ≠ "s0") :
    Origin frame block name block name
  | framePointer : Origin frame block "fp" block "s0"
  | counter : Origin frame block "pc" frame "epc"
  | interrupted : Origin frame block "sepc" frame "epc"
  | status : Origin frame block "sstatus" frame "status"
  | cause : Origin frame block "scause" frame "cause"

/-- The names that are restored as they are and the names that are saved go together. -/
theorem mem_restoredNames {name : String} :
    name ∈ restoredNames ↔ name ∈ generalNames ∧ name ≠ "sp" ∧ name ≠ "s0" := by
  -- The two tables are written apart and in different orders, so both directions are checked.
  have hrestored : ∀ name ∈ restoredNames, name ∈ generalNames ∧ name ≠ "sp" ∧ name ≠ "s0" := by
    decide +kernel
  have hgeneral : ∀ name ∈ generalNames, name = "sp" ∨ name = "s0" ∨ name ∈ restoredNames := by
    decide +kernel
  constructor
  · exact hrestored name
  · intro ⟨hname, hsp, hfp⟩
    rcases hgeneral name hname with h | h | h
    · exact absurd h hsp
    · exact absurd h hfp
    · exact h

namespace SavedFrame

variable {target : Target} {frame block : Value} {saved : SavedFrame} {name : String}
  {word : UInt64}

theorem exists_general? (h : name ∈ generalNames) : ∃ word, saved.general? name = some word := by
  unfold general? Vector.finIdxOf?
  rw [← Option.isSome_iff_exists, Option.isSome_map, Option.isSome_map, Array.isSome_finIdxOf?]
  simpa using h

theorem general?_eq_some (h : saved.general? name = some word) :
    ∃ (number : Nat) (hlt : number < 32), generalNames[number] = name ∧
      saved.general[number] = word := by
  unfold general? Vector.finIdxOf? at h
  obtain ⟨number, hnumber, hword⟩ := Option.map_eq_some_iff.mp h
  obtain ⟨index, hindex, rfl⟩ := Option.map_eq_some_iff.mp hnumber
  exact ⟨index, index.isLt, (Array.finIdxOf?_eq_some_iff.mp hindex).1, hword⟩

/-- The names of a caller's registers. -/
theorem map_fst_caller : saved.caller.registers.map Prod.fst =
    "pc" :: "sp" :: "fp" :: restoredNames ++ ["sstatus", "scause", "sepc"] := by
  have hrestored := map_fst_filterMap fun name hname =>
    saved.exists_general? (mem_restoredNames.mp hname).1
  simp only [caller, List.map_append, List.map_cons, List.map_nil, hrestored]

theorem nodup_caller : (saved.caller.registers.map Prod.fst).Nodup := by
  rw [map_fst_caller]
  decide

theorem length_caller : saved.caller.registers.length = 36 := by
  have hlength := congrArg List.length saved.map_fst_caller
  rwa [List.length_map] at hlength

section

variable (hreads : reads target frame block = saved.words.map .ok)
include hreads

theorem fieldWord_general (number : Nat) (hlt : number < 32) :
    block.fieldWord target generalNames[number] = .ok saved.general[number] := by
  have h := congrArg (fun row => row[number]?) (reads_eq_words.mp hreads).1
  simpa [hlt] using h

theorem fieldWord_of_general? (h : saved.general? name = some word) :
    block.fieldWord target name = .ok word := by
  obtain ⟨number, hlt, rfl, rfl⟩ := general?_eq_some h
  exact fieldWord_general hreads number hlt

/-- **The registers of the caller** are what the members that they come from hold. -/
theorem mem_caller : (name, word) ∈ saved.caller.registers ↔
    ∃ place member, Origin frame block name place member ∧
      place.fieldWord target member = .ok word := by
  obtain ⟨-, hstatus, hepc, hcause⟩ := reads_eq_words.mp hreads
  have hsp : block.fieldWord target "sp" = .ok saved.sp := fieldWord_general hreads 2 (by decide)
  have hfp : block.fieldWord target "s0" = .ok saved.fp := fieldWord_general hreads 8 (by decide)
  simp only [caller, List.mem_append, List.mem_cons, List.mem_filterMap, Option.map_eq_some_iff,
    Prod.mk.injEq, List.not_mem_nil, or_false]
  constructor
  · intro h
    rcases h with (⟨rfl, rfl⟩ | ⟨rfl, rfl⟩ | ⟨rfl, rfl⟩ | ⟨_, hname, _, hword, rfl, rfl⟩) |
      ⟨rfl, rfl⟩ | ⟨rfl, rfl⟩ | ⟨rfl, rfl⟩
    · exact ⟨frame, "epc", .counter, hepc⟩
    · exact ⟨block, "sp", .general (by decide +kernel) (by decide), hsp⟩
    · exact ⟨block, "s0", .framePointer, hfp⟩
    · obtain ⟨hgeneral, -, hother⟩ := mem_restoredNames.mp hname
      exact ⟨block, _, .general hgeneral hother, fieldWord_of_general? hreads hword⟩
    · exact ⟨frame, "status", .status, hstatus⟩
    · exact ⟨frame, "cause", .cause, hcause⟩
    · exact ⟨frame, "epc", .interrupted, hepc⟩
  · intro ⟨place, member, horigin, hword⟩
    cases horigin with
    | general hname hother =>
      -- The stack pointer is a general register too, but it stands in the table by itself.
      by_cases hpointer : name = "sp"
      · subst hpointer
        cases hsp.symm.trans hword
        simp
      · obtain ⟨found, hfound⟩ := saved.exists_general? hname
        cases (fieldWord_of_general? hreads hfound).symm.trans hword
        exact .inl (.inr (.inr (.inr ⟨name, mem_restoredNames.mpr ⟨hname, hpointer, hother⟩, word,
          hfound, rfl, rfl⟩)))
    | framePointer =>
      cases hfp.symm.trans hword
      simp
    | counter =>
      cases hepc.symm.trans hword
      simp
    | interrupted =>
      cases hepc.symm.trans hword
      simp
    | status =>
      cases hstatus.symm.trans hword
      simp
    | cause =>
      cases hcause.symm.trans hword
      simp

end

end SavedFrame

/-- **A caller restored from a saved frame.** It has 36 registers, each name once, and each holds
    what the member that it comes from holds, and so do its identity's stack pointer and program
    counter. -/
structure Restores (target : Target) (frame block : Value) (caller : Caller) : Prop where
  sp : block.Holds target "sp" caller.id.sp
  pc : frame.Holds target "epc" caller.id.pc
  count : caller.registers.length = 36
  once : (caller.registers.map Prod.fst).Nodup
  registers (name : String) (word : UInt64) : caller.registers.lookup name = some word ↔
    ∃ place member, Origin frame block name place member ∧ place.Holds target member word

theorem SavedFrame.restores {target : Target} {frame block : Value} {saved : SavedFrame}
    (hreads : reads target frame block = saved.words.map .ok) :
    Restores target frame block saved.caller where
  sp := Value.fieldWord_eq_ok.mp (fieldWord_general hreads 2 (by decide))
  pc := Value.fieldWord_eq_ok.mp (reads_eq_words.mp hreads).2.2.1
  count := length_caller
  once := nodup_caller
  registers name word := by
    simp only [lookup_eq_some_iff_mem nodup_caller, mem_caller hreads, Value.fieldWord_eq_ok]

/-! ## 2. The saved frame behind a frame -/

/-- **The saved frame that a frame points to**: it starts at the stack pointer, has the type of
    saved frames, and its member `gpr` is the block of the general registers. -/
structure SavedAt (target : Target) (type : String) (registers : Registers)
    (frame block : Value) : Prop where
  sp : registers "sp" = some frame.address
  layout : target.layout? type = some frame.layout
  block : frame.Member target "gpr" block

/-- **A saved frame that is all there**: the 32 general registers and the control registers. -/
def Intact (target : Target) (type : String) (registers : Registers) : Prop :=
  ∃ frame block, SavedAt target type registers frame block ∧
    (∀ name ∈ generalNames, ∃ word, block.Holds target name word) ∧
    ∀ name ∈ SavedFrame.controlNames, ∃ word, frame.Holds target name word

/-- **The first read that fails**, and its fault. -/
inductive FirstFailing (target : Target) (type : String) (registers : Registers) :
    Fault → Prop where
  | sp (h : registers "sp" = none) :
    FirstFailing target type registers (.registerUnavailable "sp")
  | type {sp : UInt64} (hsp : registers "sp" = some sp) (h : target.layout? type = none) :
    FirstFailing target type registers (.noType type)
  | block {frame : Value} {fault : Fault} (hsp : registers "sp" = some frame.address)
    (hlayout : target.layout? type = some frame.layout)
    (h : frame.field target "gpr" = .error fault) : FirstFailing target type registers fault
  | number {frame block : Value} {fault : Fault}
    (hsaved : SavedAt target type registers frame block)
    (h : FirstFault (SavedFrame.reads target frame block) fault) :
    FirstFailing target type registers fault

namespace TrapUnwinder

variable {target : Target} {registers : Registers} {type : String} {address : UInt64}
  {fault : Fault}

theorem callerAt_here (hpc : registers "pc" = some address) :
    callerAt target type registers address = (do
      let sp ← registers.read "sp"
      return some (← SavedFrame.read target sp type).caller) := by
  unfold callerAt Registers.read
  rw [hpc]
  exact if_pos rfl

/-- A frame at the address is answered with the caller that its saved frame gives. -/
theorem callerAt_eq_ok {answer : Option Caller} (hpc : registers "pc" = some address) :
    callerAt target type registers address = .ok answer ↔
      ∃ (frame block : Value) (saved : SavedFrame), SavedAt target type registers frame block ∧
        SavedFrame.reads target frame block = saved.words.map .ok ∧ some saved.caller = answer := by
  rw [callerAt_here hpc]
  simp only [bind_eq_ok, Registers.read, demand_eq_ok, SavedFrame.read_eq_ok,
    Target.valueAt_eq_ok, Value.field_eq_ok_iff_member]
  constructor
  · intro ⟨sp, hsp, saved, ⟨frame, block, ⟨haddress, hlayout⟩, hblock, hreads⟩, h⟩
    cases h
    exact ⟨frame, block, saved, ⟨haddress ▸ hsp, hlayout, hblock⟩, hreads, rfl⟩
  · intro ⟨frame, block, saved, hsaved, hreads, h⟩
    refine ⟨frame.address, hsaved.sp, saved, ?_, congrArg _ h⟩
    exact ⟨frame, block, ⟨rfl, hsaved.layout⟩, hsaved.block, hreads⟩

/-- A frame at the address is refused with the fault of the first read that fails. -/
theorem callerAt_eq_error (hpc : registers "pc" = some address) :
    callerAt target type registers address = .error fault ↔
      FirstFailing target type registers fault := by
  rw [callerAt_here hpc]
  simp only [bind_eq_error, Registers.read, demand_eq_error, demand_eq_ok, SavedFrame.read_eq_error,
    Target.valueAt_eq_error, Target.valueAt_eq_ok]
  constructor
  · intro h
    rcases h with ⟨hsp, rfl⟩ | ⟨sp, hsp, (⟨htype, rfl⟩ | ⟨frame, ⟨rfl, hlayout⟩, h⟩) | ⟨_, _, h⟩⟩
    · exact .sp hsp
    · exact .type hsp htype
    · rcases h with h | ⟨block, hblock, h⟩
      · exact .block hsp hlayout h
      · exact .number ⟨hsp, hlayout, Value.field_eq_ok_iff_member.mp hblock⟩ h
    · cases h
  · intro h
    cases h with
    | sp h => exact .inl ⟨h, rfl⟩
    | type hsp h => exact .inr ⟨_, hsp, .inl (.inl ⟨h, rfl⟩)⟩
    | block hsp hlayout h => exact .inr ⟨_, hsp, .inl (.inr ⟨_, ⟨rfl, hlayout⟩, .inl h⟩)⟩
    | number hsaved h =>
      have hblock := Value.field_eq_ok_iff_member.mpr hsaved.block
      exact .inr ⟨_, hsaved.sp, .inl (.inr ⟨_, ⟨rfl, hsaved.layout⟩, .inr ⟨_, hblock, h⟩⟩)⟩

/-- A frame at the address is answered with a caller if its saved frame is all there. -/
theorem exists_callerAt (hpc : registers "pc" = some address) :
    (∃ caller, callerAt target type registers address = .ok (some caller)) ↔
      Intact target type registers := by
  simp only [callerAt_eq_ok hpc, Intact, ← SavedFrame.forall_reads]
  constructor
  · intro ⟨_, frame, block, saved, hsaved, hreads, _⟩
    refine ⟨frame, block, hsaved, fun answer hanswer => ?_⟩
    rw [hreads] at hanswer
    obtain ⟨word, -, rfl⟩ := List.mem_map.mp hanswer
    exact ⟨word, rfl⟩
  · intro ⟨frame, block, hsaved, hall⟩
    -- Reading looks the frame and its block up again, and finds the same ones.
    have hframe := Target.valueAt_eq_ok.mpr ⟨rfl, hsaved.layout⟩
    have hblock := Value.field_eq_ok_iff_member.mpr hsaved.block
    obtain ⟨saved, hread⟩ := SavedFrame.exists_read hframe hblock hall
    obtain ⟨frame', block', hframe', hblock', hreads⟩ := SavedFrame.read_eq_ok.mp hread
    cases hframe.symm.trans hframe'
    cases hblock.symm.trans hblock'
    exact ⟨saved.caller, frame, block, saved, hsaved, hreads, rfl⟩

/-! ## 3. The whole frame or a fault -/

/-- **A frame at the returning instruction is unwound as a whole or not at all.** It has a caller if
    and only if its stack pointer can be read and all numbers of the saved frame there can; the
    caller then has exactly the registers that are restored from that frame. Else the answer is the
    fault of the first read that fails. Such a frame is never declined. -/
theorem restores_whole (target : Target) (registers : Registers) (unwinder : TrapUnwinder)
    (address : UInt64) (hreturn : unwinder.returnsAt target = .ok address)
    (hpc : registers "pc" = some address) :
    ((∃ caller, (unwinder.unwind target registers).1.result = .ok (some caller)) ↔
      Intact target unwinder.frameType registers) ∧
    (∀ caller, (unwinder.unwind target registers).1.result = .ok (some caller) →
      ∃ frame block, SavedAt target unwinder.frameType registers frame block ∧
        Restores target frame block caller) ∧
    (∀ fault, (unwinder.unwind target registers).1.result = .error fault ↔
      FirstFailing target unwinder.frameType registers fault) ∧
    (unwinder.unwind target registers).1.result ≠ .ok none := by
  have hresult : (unwinder.unwind target registers).1.result =
      callerAt target unwinder.frameType registers address := by
    rw [result_unwind, hreturn]
    rfl
  rw [hresult]
  refine ⟨exists_callerAt hpc, ?_, fun fault => callerAt_eq_error hpc, ?_⟩
  · intro caller h
    obtain ⟨frame, block, saved, hsaved, hreads, hcaller⟩ := (callerAt_eq_ok hpc).mp h
    cases hcaller
    exact ⟨frame, block, hsaved, saved.restores hreads⟩
  · intro h
    obtain ⟨_, _, _, _, _, hcaller⟩ := (callerAt_eq_ok hpc).mp h
    cases hcaller

end TrapUnwinder

/-! ## 4. A frame that is saved in another order -/

/-- The layouts of a saved frame whose members stand in another order, at odd distances, and with
    numbers of all widths. -/
def strewnLayouts : List Layout :=
  scalarLayouts ++
    [.record "struct trapframe" 400
        [⟨"cause", 7, "uint16_t"⟩, ⟨"gpr", 32, "struct block"⟩, ⟨"epc", 9, "uint64_t"⟩,
          ⟨"status", 1, "uint8_t"⟩],
      .record "struct block" 360 (generalNames.toList.reverse.mapIdx fun number name =>
        ⟨name, .ofNat (3 + 11 * number),
          ["uint8_t", "uint16_t", "uint32_t", "uint64_t"].getD (number % 4) "void"⟩)]

/-- The kernel where each byte is the lowest of its address, with these layouts. -/
def Target.strewn : Target :=
  { Target.ramp (some 0x500) with
    layout? := fun name => (strewnLayouts.map fun layout => (layout.name, layout)).lookup name }

namespace TrapUnwinder

/-- Every number comes from where these layouts put it, in the width that they give it. -/
theorem restores_whole_strewn :
    (of {}).returnsAt .strewn = .ok 0x500 ∧ removed.registers "pc" = some 0x500 ∧
    ∃ caller frame block,
      ((of {}).unwind .strewn removed.registers).1.result = .ok (some caller) ∧
      SavedAt .strewn "struct trapframe" removed.registers frame block ∧
      Restores .strewn frame block caller ∧ caller.id = ⟨0x6362, 0x100f0e0d0c0b0a09⟩ ∧
      ["fp", "a0", "t6", "sstatus", "scause"].map (caller.registers.lookup ·) =
        [some 0x2726252423222120, some 0x0b0a, some 0x23, some 0x01, some 0x0807] := by
  obtain ⟨-, hrestores, -, -⟩ := restores_whole .strewn removed.registers (of {}) 0x500 rfl rfl
  have hseen : ∃ caller, ((of {}).unwind .strewn removed.registers).1.result = .ok (some caller) ∧
      (caller.id, ["fp", "a0", "t6", "sstatus", "scause"].map (caller.registers.lookup ·)) =
        (⟨0x6362, 0x100f0e0d0c0b0a09⟩,
          [some 0x2726252423222120, some 0x0b0a, some 0x23, some 0x01, some 0x0807]) :=
    exists_answer (by decide +kernel)
  obtain ⟨caller, hresult, hseen⟩ := hseen
  obtain ⟨frame, block, hsaved, hrestored⟩ := hrestores caller hresult
  obtain ⟨hid, hregisters⟩ := Prod.mk.inj hseen
  exact ⟨rfl, rfl, caller, frame, block, hresult, hsaved, hrestored, hid, hregisters⟩

end TrapUnwinder

end KernelProbe
