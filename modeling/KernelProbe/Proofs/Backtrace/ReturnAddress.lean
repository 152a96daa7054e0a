import KernelProbe.Backtrace.Unwinder
import KernelProbe.Image.Kernel
import KernelProbe.Proofs.Intrusive.Places

/-!
# The remembered address of the returning instruction

The trap unwinder asks for the symbol of the returning instruction until it is found, and then never
again. So a row of frames, each met in a kernel of its own, falls into two parts: before the first
kernel with that symbol every answer is the fault of the look-up; from there on every answer is the
one that a fresh unwinder gives where the symbol still lies where it was first found.

* `TrapUnwinder.returnsAt` -- the address that an unwinder goes by;
* `TrapUnwinder.answers`, `TrapUnwinder.after` -- a row of frames;
* `TrapUnwinder.first_found_stays` -- the first address that is found is the one that counts.
-/

namespace KernelProbe

/-! ## 1. One frame -/

namespace TrapUnwinder

variable {target : Target} {registers : Registers} {unwinder : TrapUnwinder} {address : UInt64}
  {fault : Fault}

/-- **The address that an unwinder goes by**: the one it knows, else that of the symbol. -/
def returnsAt (target : Target) (unwinder : TrapUnwinder) : Except Fault UInt64 :=
  match unwinder.returnAddress with
  | some address => .ok address
  | none => (target.symbol unwinder.returnSymbol).map Symbol.address

theorem returnsAt_of_known (h : unwinder.returnAddress = some address) :
    unwinder.returnsAt target = .ok address := by
  unfold returnsAt
  rw [h]

theorem returnsAt_of_unknown (h : unwinder.returnAddress = none) :
    unwinder.returnsAt target = (target.symbol unwinder.returnSymbol).map Symbol.address := by
  unfold returnsAt
  rw [h]

/-- An unwinder answers by the one address that it goes by. -/
theorem result_unwind : (unwinder.unwind target registers).1.result =
    unwinder.returnsAt target >>= callerAt target unwinder.frameType registers := by
  unfold unwind returnsAt
  cases unwinder.returnAddress with
  | some address => rfl
  | none => cases target.symbol unwinder.returnSymbol <;> rfl

/-- An address that an unwinder has gone by, it knows from then on. -/
theorem unwind_of_ok (h : unwinder.returnsAt target = .ok address) :
    (unwinder.unwind target registers).2 = { unwinder with returnAddress := some address } := by
  obtain ⟨symbol, type, known⟩ := unwinder
  cases known with
  | some known =>
    cases h
    rfl
  | none =>
    obtain ⟨found, hfound, rfl⟩ := map_eq_ok.mp h
    simp only [unwind, hfound]

/-- A look-up that fails leaves no trace. -/
theorem unwind_of_error (h : unwinder.returnsAt target = .error fault) :
    (unwinder.unwind target registers).2 = unwinder := by
  obtain ⟨symbol, type, known⟩ := unwinder
  cases known with
  | some known => cases h
  | none =>
    cases hsymbol : target.symbol symbol with
    | error met => simp only [unwind, hsymbol]
    | ok found =>
      rw [returnsAt_of_unknown rfl, hsymbol] at h
      cases h

variable {type : String} {pc : UInt64}

/-- **A frame elsewhere is declined**, whatever else its registers, the memory and the types are. -/
theorem callerAt_elsewhere (hpc : registers "pc" = some pc) (hne : pc ≠ address) :
    callerAt target type registers address = .ok none := by
  unfold callerAt Registers.read
  rw [hpc]
  exact if_neg hne

/-- A caller is given only for a frame at the address. -/
theorem pc_of_callerAt {caller : Caller}
    (h : callerAt target type registers address = .ok (some caller)) :
    registers "pc" = some address := by
  obtain ⟨pc, hread, -⟩ := bind_eq_ok.mp h
  have hpc := demand_eq_ok.mp hread
  by_cases hhere : pc = address
  · rw [hpc, hhere]
  · rw [callerAt_elsewhere hpc hhere] at h
    cases h

end TrapUnwinder

/-! ## 2. Frames one after the other -/

/-- The kernel with a symbol that lies where it is said to. -/
def Target.withSymbol (name : String) (symbol : Symbol) (target : Target) : Target :=
  { target with symbol? := fun other => if other = name then some symbol else target.symbol? other }

namespace TrapUnwinder

/-- The answers to a row of frames. -/
def answers (unwinder : TrapUnwinder) : List Pending → List (Except Fault (Option Caller))
  | [] => []
  | frame :: later =>
    (unwinder.unwind frame.target frame.registers).1.result ::
      answers (unwinder.unwind frame.target frame.registers).2 later

/-- The unwinder after a row of frames. -/
def after (unwinder : TrapUnwinder) : List Pending → TrapUnwinder
  | [] => unwinder
  | frame :: later => after (unwinder.unwind frame.target frame.registers).2 later

/-- The answer of a fresh unwinder where the symbol of the returning instruction is a given one. -/
def answerWith (config : Config) (symbol : Symbol) (frame : Pending) :
    Except Fault (Option Caller) :=
  ((of config).unwind (frame.target.withSymbol config.trapReturnSymbol symbol)
    frame.registers).1.result

variable {config : Config} {unwinder : TrapUnwinder} {target : Target} {frame : Pending}
  {found : Symbol} {address : UInt64}

theorem answers_append (before later : List Pending) :
    unwinder.answers (before ++ later) =
      unwinder.answers before ++ (unwinder.after before).answers later := by
  induction before generalizing unwinder with
  | nil => rfl
  | cons frame before ih => exact congrArg _ ih

theorem after_append (before later : List Pending) :
    unwinder.after (before ++ later) = (unwinder.after before).after later := by
  induction before generalizing unwinder with
  | nil => rfl
  | cons frame before ih => exact ih

/-- An unwinder that no frame changes answers to each as to the first. -/
theorem answers_of_same (frames : List Pending)
    (h : ∀ frame ∈ frames, (unwinder.unwind frame.target frame.registers).2 = unwinder) :
    unwinder.answers frames = frames.map (fun frame =>
      (unwinder.unwind frame.target frame.registers).1.result) ∧
    unwinder.after frames = unwinder := by
  induction frames with
  | nil => exact ⟨rfl, rfl⟩
  | cons frame later ih =>
    obtain ⟨hfirst, hlater⟩ := List.forall_mem_cons.mp h
    rw [answers, after, List.map_cons, hfirst]
    exact ⟨congrArg _ (ih hlater).1, (ih hlater).2⟩

/-- **An unwinder that knows its address** goes by it for ever. -/
theorem answers_of_known (frames : List Pending) (h : unwinder.returnAddress = some address) :
    unwinder.answers frames = frames.map (fun frame =>
      callerAt frame.target unwinder.frameType frame.registers address) ∧
    unwinder.after frames = unwinder := by
  have hsame : { unwinder with returnAddress := some address } = unwinder := by rw [← h]
  obtain ⟨hanswers, hafter⟩ := answers_of_same frames fun frame _ =>
    (unwind_of_ok (returnsAt_of_known h)).trans hsame
  refine ⟨hanswers.trans (List.map_congr_left fun frame _ => ?_), hafter⟩
  rw [result_unwind, returnsAt_of_known h]
  rfl

/-- **An unwinder that does not find its symbol** says so every time, and stays as it is. -/
theorem answers_of_missing (frames : List Pending) (hnew : unwinder.returnAddress = none)
    (h : ∀ frame ∈ frames, frame.target.symbol? unwinder.returnSymbol = none) :
    unwinder.answers frames = frames.map (fun _ => .error (.noSymbol unwinder.returnSymbol)) ∧
    unwinder.after frames = unwinder := by
  have hmissing : ∀ frame ∈ frames,
      unwinder.returnsAt frame.target = .error (.noSymbol unwinder.returnSymbol) := by
    intro frame hframe
    rw [returnsAt_of_unknown hnew, Target.symbol, h frame hframe]
    rfl
  obtain ⟨hanswers, hafter⟩ := answers_of_same frames fun frame hframe =>
    unwind_of_error (hmissing frame hframe)
  refine ⟨hanswers.trans (List.map_congr_left fun frame hframe => ?_), hafter⟩
  rw [result_unwind, hmissing frame hframe]
  rfl

theorem returnsAt_of_found (h : target.symbol? config.trapReturnSymbol = some found) :
    (of config).returnsAt target = .ok found.address := by
  rw [returnsAt_of_unknown rfl, Target.symbol, of, h]
  rfl

/-- The symbol matters for its address alone. -/
theorem answerWith_eq : answerWith config found frame =
    callerAt frame.target config.trapFrameType frame.registers found.address := by
  have hfound : (frame.target.withSymbol config.trapReturnSymbol found).symbol?
      config.trapReturnSymbol = some found := if_pos rfl
  rw [answerWith, result_unwind, returnsAt_of_found hfound]
  rfl

/-- From the first frame on that finds the symbol, every frame is answered with what that one has
    found. -/
theorem answers_of_found (frames : List Pending)
    (h : frame.target.symbol? config.trapReturnSymbol = some found) :
    (of config).answers (frame :: frames) = (frame :: frames).map (answerWith config found) ∧
    (of config).after (frame :: frames) =
      ⟨config.trapReturnSymbol, config.trapFrameType, some found.address⟩ := by
  -- The first of these frames fills the unwinder's memory, and the others meet it filled.
  have hat := returnsAt_of_found h
  rw [answers, after, result_unwind, unwind_of_ok hat, hat]
  have hknown : (⟨config.trapReturnSymbol, config.trapFrameType, some found.address⟩ :
      TrapUnwinder).returnAddress = some found.address := rfl
  obtain ⟨hanswers, hafter⟩ := answers_of_known frames hknown
  rw [List.map_cons, answerWith_eq]
  refine ⟨congrArg _ (hanswers.trans (List.map_congr_left fun _ _ => ?_)), hafter⟩
  exact answerWith_eq.symm

/-! ## 3. The first address that is found -/

/-- **The first address that is found is the one that counts.** Frames whose kernels do not have the
    symbol of the returning instruction are answered with the fault of the look-up, and leave the
    unwinder as it is. From the first frame on whose kernel has it, every answer is the one of a
    fresh unwinder in a kernel where the symbol is still the one that was found then: wherever the
    symbol is moved to, if it is removed, and whatever the answers before were. Such an answer
    declines every frame with another program counter, whatever the memory, the types and the other
    registers are; and it gives a caller only if the program counter is that address. -/
theorem first_found_stays (config : Config) :
    (∀ frames : List Pending,
      (∀ frame ∈ frames, frame.target.symbol? config.trapReturnSymbol = none) →
      (of config).answers frames =
        frames.map (fun _ => .error (.noSymbol config.trapReturnSymbol)) ∧
      (of config).after frames = of config) ∧
    (∀ (before later : List Pending) (first : Pending) (found : Symbol),
      (∀ frame ∈ before, frame.target.symbol? config.trapReturnSymbol = none) →
      first.target.symbol? config.trapReturnSymbol = some found →
      (of config).answers (before ++ first :: later) =
        before.map (fun _ => .error (.noSymbol config.trapReturnSymbol)) ++
          (first :: later).map (answerWith config found) ∧
      (of config).after (before ++ first :: later) =
        ⟨config.trapReturnSymbol, config.trapFrameType, some found.address⟩) ∧
    (∀ (found : Symbol) (frame : Pending) (pc : UInt64),
      frame.registers "pc" = some pc → pc ≠ found.address →
      answerWith config found frame = .ok none) ∧
    (∀ (found : Symbol) (frame : Pending) (caller : Caller),
      answerWith config found frame = .ok (some caller) →
      frame.registers "pc" = some found.address) := by
  refine ⟨fun frames h => answers_of_missing frames rfl h, ?_, ?_, ?_⟩
  · intro before later first found hbefore hfirst
    have hnew : (of config).returnAddress = none := rfl
    obtain ⟨hmissing, hsame⟩ := answers_of_missing before hnew hbefore
    obtain ⟨hfound, hafter⟩ := answers_of_found later hfirst
    rw [answers_append, after_append, hsame, hmissing, hfound, hafter]
    exact ⟨rfl, rfl⟩
  · intro found frame pc hpc hne
    rw [answerWith_eq]
    exact callerAt_elsewhere hpc hne
  · intro found frame caller h
    rw [answerWith_eq] at h
    exact pc_of_callerAt h

/-- An answer that has been computed is a caller if there is something to be seen of it. -/
theorem exists_answer {α : Type} {answer : Except Fault (Option Caller)} {see : Caller → α}
    {seen : α} (h : answer.toOption.join.map see = some seen) :
    ∃ caller, answer = .ok (some caller) ∧ see caller = seen := by
  obtain ⟨caller, hcaller, hseen⟩ := Option.map_eq_some_iff.mp h
  cases answer with
  | error fault => cases hcaller
  | ok answer => exact ⟨caller, congrArg _ hcaller, hseen⟩

end TrapUnwinder

/-! ## 4. A symbol that moves -/

/-- The kernel with the layouts of the teaching kernel and possibly the symbol of the returning
    instruction, where each byte of memory is the lowest one of its address. -/
def Target.ramp (symbol : Option UInt64) : Target where
  register? _ := none
  memory? address length := some (.ofFn fun i : Fin length => (address + .ofNat i.val).toUInt8)
  symbol? name := if name = "__trapret" then symbol.map (⟨·, "void"⟩) else none
  layout? := Image.kernel.view.layout?

/-- A frame in that kernel. -/
def Pending.ramp (symbol : Option UInt64) (registers : List (String × UInt64)) : Pending :=
  ⟨.ramp symbol, fun name => registers.lookup name⟩

namespace TrapUnwinder

/-- A frame at the address `0x500` in a kernel without the symbol. -/
def removed : Pending :=
  .ramp none [("pc", 0x500), ("sp", 0x7000)]

theorem answerWith_removed : ∃ caller, answerWith {} ⟨0x500, "void"⟩ removed = .ok (some caller) ∧
    caller.id = ⟨0x1716151413121110, 0x0f0e0d0c0b0a0908⟩ :=
  exists_answer (by decide +kernel)

/-- The symbol is missing at first; it is found where the frame has no registers; it moves; and it
    is removed. The frame at the first address is still the one that is unwound. -/
theorem first_found_stays_removed : ∃ caller,
    (of {}).answers [removed, .ramp (some 0x500) [], .ramp (some 0x900) [("pc", 0x900)], removed] =
      [.error (.noSymbol "__trapret"), .error (.registerUnavailable "pc"), .ok none,
        .ok (some caller)] ∧
    caller.id = ⟨0x1716151413121110, 0x0f0e0d0c0b0a0908⟩ ∧
    ((of {}).after [removed, .ramp (some 0x500) [], .ramp (some 0x900) [("pc", 0x900)],
      removed]).returnAddress = some 0x500 := by
  obtain ⟨-, hfound, helsewhere, -⟩ := first_found_stays {}
  have hmissing : ∀ frame ∈ [removed], frame.target.symbol? "__trapret" = none := by
    intro frame hframe
    cases List.mem_singleton.mp hframe
    rfl
  obtain ⟨hanswers, hafter⟩ := hfound [removed] [.ramp (some 0x900) [("pc", 0x900)], removed]
    (.ramp (some 0x500) []) ⟨0x500, "void"⟩ hmissing rfl
  have hmoved := helsewhere ⟨0x500, "void"⟩ (.ramp (some 0x900) [("pc", 0x900)]) 0x900 rfl
    (by decide)
  obtain ⟨caller, hremoved, hid⟩ := answerWith_removed
  refine ⟨caller, hanswers.trans ?_, hid, congrArg returnAddress hafter⟩
  simp only [List.map_cons, hmoved, hremoved]
  rfl

end TrapUnwinder

end KernelProbe
