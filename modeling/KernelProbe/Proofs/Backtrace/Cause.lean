import KernelProbe.Proofs.Backtrace.Relabelling
import KernelProbe.Proofs.Backtrace.Restoring

/-!
# The cause of a trap, shown and restored

The cause of a trap is read in two ways: the unwinder reads the whole saved frame and gives the
cause to the caller as the register `scause`; a backtrace reads the cause alone and shows it as the
argument of the frame that the trap entered the kernel through. Where the first reading succeeds so
does the second one, with the same number. The second one asks for less: it depends on the bytes of
one member, and works in a saved frame of which nothing else can be read.

* `SavedFrame.readCause_eq_ok` -- reading the cause alone;
* `SameCause` -- kernels that differ in other places only;
* `cause_shown_is_restored` -- the two readings agree.
-/

namespace KernelProbe

variable {target other : Target} {address : UInt64} {type : String}

/-! ## 1. The cause alone -/

namespace SavedFrame

/-- **The cause that is read alone** is what the member `cause` holds. -/
theorem readCause_eq_ok {cause : UInt64} : readCause target address type = .ok cause ↔
    ∃ frame : Value, (frame.address = address ∧ target.layout? type = some frame.layout) ∧
      frame.Holds target "cause" cause := by
  simp only [readCause, bind_eq_ok, Target.valueAt_eq_ok, Value.fieldWord_eq_ok]

/-- **A saved frame that can be read** has a cause that can be read alone. -/
theorem readCause_of_read {saved : SavedFrame} (h : read target address type = .ok saved) :
    readCause target address type = .ok saved.cause := by
  obtain ⟨frame, block, hframe, -, hreads⟩ := read_eq_ok.mp h
  obtain ⟨-, -, -, hcause⟩ := reads_eq_words.mp hreads
  exact readCause_eq_ok.mpr
    ⟨frame, Target.valueAt_eq_ok.mp hframe, Value.fieldWord_eq_ok.mp hcause⟩

end SavedFrame

/-! ## 2. Kernels with the same cause -/

/-- **Kernels with the same cause** in the saved frame at an address: they have the same types, and
    the bytes of the member `cause` are the same in both or can be read in neither. -/
structure SameCause (target other : Target) (address : UInt64) (type : String) : Prop where
  types (name : String) : other.layout? name = target.layout? name
  bytes {frame place : Value} (haddress : frame.address = address)
    (hlayout : target.layout? type = some frame.layout)
    (hplace : frame.Member target "cause" place) :
    other.memory? place.address place.layout.size.toNat =
      target.memory? place.address place.layout.size.toNat

/-- Places depend on the types alone. -/
theorem Target.valueAt_congr (htypes : ∀ name, other.layout? name = target.layout? name) :
    other.valueAt address type = target.valueAt address type := by
  unfold valueAt layout
  rw [htypes]

theorem Value.field_congr (htypes : ∀ name, other.layout? name = target.layout? name)
    (value : Value) (name : String) : value.field other name = value.field target name := by
  unfold field
  simp only [Target.valueAt_congr htypes]

/-- The number at a place depends on its bytes alone. -/
theorem Value.word_congr {place : Value}
    (hbytes : other.memory? place.address place.layout.size.toNat =
      target.memory? place.address place.layout.size.toNat) :
    place.word other = place.word target := by
  by_cases hnumeric : place.layout.Numeric
  · rw [word_of_numeric hnumeric, word_of_numeric hnumeric, Target.memory, Target.memory, hbytes]
  · rw [word_of_not_numeric hnumeric, word_of_not_numeric hnumeric]

/-- **The cause alone depends on its bytes alone**: whether it can be read, what it is, and what the
    fault is. -/
theorem SameCause.readCause (h : SameCause target other address type) :
    SavedFrame.readCause other address type = SavedFrame.readCause target address type := by
  unfold SavedFrame.readCause
  rw [Target.valueAt_congr h.types]
  cases hframe : target.valueAt address type with
  | error fault => rfl
  | ok frame =>
    show frame.fieldWord other "cause" = frame.fieldWord target "cause"
    obtain ⟨haddress, hlayout⟩ := Target.valueAt_eq_ok.mp hframe
    unfold Value.fieldWord
    rw [Value.field_congr h.types]
    cases hplace : frame.field target "cause" with
    | error fault => rfl
    | ok place =>
      exact Value.word_congr (h.bytes haddress hlayout (Value.field_eq_ok_iff_member.mp hplace))

/-! ## 3. The argument and the register -/

/-- A caller has the cause of the saved frame that its stack pointer points to. -/
theorem TrapUnwinder.cause_of_unwind {unwinder : TrapUnwinder} {registers : Registers}
    {caller : Caller} (h : (unwinder.unwind target registers).1.result = .ok (some caller)) :
    ∃ sp cause, registers "sp" = some sp ∧
      SavedFrame.readCause target sp unwinder.frameType = .ok cause ∧
      caller.registers.lookup "scause" = some cause := by
  rw [result_unwind] at h
  obtain ⟨address, -, hcaller⟩ := bind_eq_ok.mp h
  have hpc := pc_of_callerAt hcaller
  obtain ⟨frame, block, saved, hsaved, hreads, hcaller⟩ := (callerAt_eq_ok hpc).mp hcaller
  cases hcaller
  obtain ⟨-, -, -, hcause⟩ := SavedFrame.reads_eq_words.mp hreads
  have hholds := Value.fieldWord_eq_ok.mp hcause
  exact ⟨frame.address, saved.cause, hsaved.sp,
    SavedFrame.readCause_eq_ok.mpr ⟨frame, ⟨rfl, hsaved.layout⟩, hholds⟩,
    ((SavedFrame.restores hreads).registers "scause" saved.cause).mpr
      ⟨frame, "cause", .cause, hholds⟩⟩

/-- The argument of the frame that traps enter the kernel through. -/
theorem Frame.causeArgument_of_sp {config : Config} {sp : UInt64} {registers : Registers}
    (hsp : registers "sp" = some sp) : causeArgument config registers target =
      (SavedFrame.readCause target sp config.trapFrameType).map fun cause =>
        [⟨"scause", cause, (TrapCause.mk cause).description⟩] := by
  unfold causeArgument Registers.read
  rw [hsp]
  show (SavedFrame.readCause target sp config.trapFrameType >>= fun cause => _) = _
  cases SavedFrame.readCause target sp config.trapFrameType <;> rfl

/-- **The cause that is shown is the one that is restored.** Where a saved frame can be read its
    cause can be read alone, and is the same. So if the trap unwinder gives a caller to a frame, the
    frame that traps enter the kernel through, if it has the same stack pointer, is shown with one
    argument `scause`, and that is the register `scause` of the caller.
    The cause alone depends on the bytes of the member `cause`: in kernels with the same types where
    they are the same, or can be read in neither, the same arguments are shown or the same fault is,
    whatever else of the saved frame can be read. -/
theorem cause_shown_is_restored (target : Target) (config : Config) :
    (∀ (address : UInt64) (type : String) (saved : SavedFrame),
      SavedFrame.read target address type = .ok saved →
      SavedFrame.readCause target address type = .ok saved.cause) ∧
    (∀ (unwinder : TrapUnwinder) (registers : Registers) (caller : Caller) (frame : Frame),
      unwinder.frameType = config.trapFrameType →
      (unwinder.unwind target registers).1.result = .ok (some caller) →
      frame.name = some config.trapEntrySymbol → frame.registers "sp" = registers "sp" →
      ∃ argument, (frame.relabelled config).arguments target = .ok [argument] ∧
        argument.symbol = "scause" ∧
        argument.note = (TrapCause.mk argument.value).description ∧
        caller.registers.lookup "scause" = some argument.value) ∧
    (∀ (other : Target) (address : UInt64) (type : String), SameCause target other address type →
      SavedFrame.readCause other address type = SavedFrame.readCause target address type) ∧
    ∀ (other : Target) (frame : Frame), frame.name = some config.trapEntrySymbol →
      (∀ sp, frame.registers "sp" = some sp → SameCause target other sp config.trapFrameType) →
      (frame.relabelled config).arguments other = (frame.relabelled config).arguments target := by
  refine ⟨fun _ _ _ h => SavedFrame.readCause_of_read h, ?_, fun _ _ _ h => h.readCause, ?_⟩
  · intro unwinder registers caller frame htype hcaller hname hsame
    obtain ⟨sp, cause, hsp, hcause, hregister⟩ := TrapUnwinder.cause_of_unwind hcaller
    rw [htype] at hcause
    rw [Frame.arguments_of_name hname, Frame.causeArgument_of_sp (hsame.trans hsp), hcause]
    exact ⟨_, rfl, rfl, rfl, hregister⟩
  · intro other frame hname hsame
    rw [Frame.arguments_of_name hname]
    cases hsp : frame.registers "sp" with
    | none =>
      unfold Frame.causeArgument Registers.read
      rw [hsp]
      rfl
    | some sp =>
      rw [Frame.causeArgument_of_sp hsp, Frame.causeArgument_of_sp hsp, (hsame sp hsp).readCause]

/-! ## 4. A saved frame of which only the cause can be read -/

/-- The kernel with a saved frame in another order, of whose memory only two bytes can be read. -/
def Target.worn : Target :=
  { Target.strewn with
    memory? := fun address length =>
      if address = 0x7007 ∧ length = 2 then Target.strewn.memory? address length else none }

/-- The frame that a trap has entered this kernel through. -/
def wornFrame : Frame :=
  ⟨some ({} : Config).trapEntrySymbol, TrapUnwinder.removed.registers, none, fun _ => .ok [], none⟩

/-- The cause lies where both kernels can be read. -/
theorem sameCause_worn : SameCause .strewn .worn 0x7000 "struct trapframe" where
  types name := rfl
  bytes {frame place} haddress hlayout hplace := by
    obtain ⟨address, layout⟩ := frame
    cases haddress
    cases hlayout
    cases Value.field_eq_ok_iff_member.mpr hplace
    rfl

/-- The frame at the returning instruction is unwound in the one kernel. In the other one it cannot
    be, but the cause is shown in both. -/
theorem cause_shown_is_restored_worn : ∃ caller,
    ((TrapUnwinder.of {}).unwind .strewn TrapUnwinder.removed.registers).1.result =
      .ok (some caller) ∧
    caller.registers.lookup "scause" = some 0x0807 ∧
    (wornFrame.relabelled {}).arguments .strewn = .ok [⟨"scause", 0x0807, none⟩] ∧
    (SavedFrame.read .worn 0x7000 "struct trapframe").toOption = none ∧
    (wornFrame.relabelled {}).arguments .worn = .ok [⟨"scause", 0x0807, none⟩] := by
  obtain ⟨-, hshown, -, hsame⟩ := cause_shown_is_restored .strewn {}
  have hseen : ∃ caller, ((TrapUnwinder.of {}).unwind .strewn
      TrapUnwinder.removed.registers).1.result = .ok (some caller) ∧
        caller.registers.lookup "scause" = some 0x0807 :=
    TrapUnwinder.exists_answer (by decide +kernel)
  obtain ⟨caller, hresult, hregister⟩ := hseen
  obtain ⟨⟨symbol, value, note⟩, harguments, hsymbol, hnote, hvalue⟩ :=
    hshown (TrapUnwinder.of {}) TrapUnwinder.removed.registers caller wornFrame rfl hresult rfl rfl
  obtain rfl : value = 0x0807 := Option.some.inj (hvalue.symm.trans hregister)
  obtain rfl : symbol = "scause" := hsymbol
  have hunnamed : (TrapCause.mk 0x0807).description = none := by decide
  obtain rfl : note = none := hnote.trans hunnamed
  have hworn := hsame .worn wornFrame rfl fun sp hsp => by
    cases hsp
    exact sameCause_worn
  exact ⟨caller, hresult, hregister, harguments, by decide +kernel, hworn.trans harguments⟩

end KernelProbe
