import KernelProbe.Session.Basic

/-!
# Operations on a session

All that is asked of a session, one operation after the other: the unwinding and showing of frames,
the three commands, by name or as a line of text, and the elements of registered containers. An
operation is given the session and the kernel as the one before it left them.

* `Operation`, `Answer` -- what is asked, and what comes of it;
* `Stage.perform`, `Stage.run` -- one operation, and one after the other;
* `Stage.kernel_perform` -- only a dump of the address space changes the kernel;
* `Stage.run_invariant` -- what every operation keeps holds before and after each of a run.
-/

namespace KernelProbe

/-- What is asked of a session. -/
inductive Operation where
  /-- An unwinder is registered. -/
  | addUnwinder (unwinder : Unwinder) (replace : Bool)
  /-- The filter of frames is changed. -/
  | setFilter (filter : FrameFilter)
  /-- The caller of a frame with these registers. -/
  | unwind (registers : Registers)
  /-- The frames of a backtrace as they are shown. -/
  | backtrace (frames : List Frame)
  | allocatorReport
  | dumpPages
  | registerContainer (expression owner member : String)
  /-- The elements of the container that is registered at the address of a value. -/
  | showElements (value : Value)
  /-- A line of text. -/
  | execute (line : String)

/-- What comes of an operation. -/
inductive Answer where
  | done
  | caller (caller : Option Caller)
  | frames (frames : List Frame)
  | text (text : String)
  | elements (elements : Option (Array (String × Value)))

/-- The outcome with another answer. -/
def Outcome.map {α β : Type} (f : α → β) (outcome : Outcome α) : Outcome β :=
  ⟨outcome.events, outcome.result.map f⟩

namespace Session

variable {σ : Type} [Debuggee σ] {session : Session} {kernel : σ} {line : String}

/-- A line that asks for the dump of the address space. -/
theorem execute_pages (h : Command.parse line = .pages) :
    session.execute kernel line =
      ((session.dumpPages kernel).1, session, (session.dumpPages kernel).2) := by
  rw [execute, h]

/-- Other lines leave the kernel as it is. -/
theorem execute_kernel (h : Command.parse line ≠ .pages) :
    (session.execute kernel line).2.2 = kernel := by
  rw [execute]
  cases hcommand : Command.parse line with
  | pages => exact absurd hcommand h
  | _ => rfl

end Session

/-- A session, and the kernel that it is asked about. -/
structure Stage (σ : Type) where
  session : Session
  kernel : σ

namespace Stage

variable {σ : Type} [Debuggee σ]

/-- Carries out an operation. -/
def perform (stage : Stage σ) : Operation → Outcome Answer × Stage σ
  | .addUnwinder unwinder replace =>
    let (outcome, session) := stage.session.addUnwinder unwinder replace
    (outcome.map fun _ => .done, ⟨session, stage.kernel⟩)
  | .setFilter filter =>
    (.ofResult (.ok .done), ⟨{ stage.session with filter }, stage.kernel⟩)
  | .unwind registers =>
    let (outcome, session) := stage.session.unwind (Debuggee.view stage.kernel) registers
    (outcome.map .caller, ⟨session, stage.kernel⟩)
  | .backtrace frames => (.ofResult (.ok (.frames (stage.session.backtrace frames))), stage)
  | .allocatorReport =>
    (.ofResult ((stage.session.allocatorReport (Debuggee.view stage.kernel)).map .text), stage)
  | .dumpPages =>
    let (outcome, kernel) := stage.session.dumpPages stage.kernel
    (outcome.map .text, ⟨stage.session, kernel⟩)
  | .registerContainer expression owner member =>
    let (outcome, session) :=
      stage.session.registerContainer (Debuggee.view stage.kernel) expression owner member
    (outcome.map .text, ⟨session, stage.kernel⟩)
  | .showElements value =>
    match stage.session.listing? value with
    | none => (.ofResult (.ok (.elements none)), stage)
    | some listing =>
      let outcome := listing.children (Debuggee.view stage.kernel) stage.session.config
      (outcome.map fun elements => .elements (some elements), stage)
  | .execute line =>
    let (outcome, session, kernel) := stage.session.execute stage.kernel line
    (outcome.map .text, ⟨session, kernel⟩)

/-- Carries out operations in order. -/
def run (stage : Stage σ) : List Operation → List (Outcome Answer) × Stage σ
  | [] => ([], stage)
  | operation :: later =>
    let (outcome, next) := stage.perform operation
    let (outcomes, last) := next.run later
    (outcome :: outcomes, last)

/-- **Only a dump of the address space changes the kernel**, and its events are those of the
    operation. -/
theorem kernel_perform (stage : Stage σ) (operation : Operation) :
    (stage.perform operation).2.kernel = stage.kernel ∨
      (stage.perform operation).1.events = (stage.session.dumpPages stage.kernel).1.events ∧
        (stage.perform operation).2.kernel = (stage.session.dumpPages stage.kernel).2 := by
  cases operation with
  | dumpPages => exact .inr ⟨rfl, rfl⟩
  | execute line =>
    by_cases hpages : Command.parse line = .pages
    · rw [perform, Session.execute_pages hpages]
      exact .inr ⟨rfl, rfl⟩
    · exact .inl (Session.execute_kernel hpages)
  | showElements value =>
    refine .inl ?_
    rw [perform]
    split <;> rfl
  | _ => exact .inl rfl

/-- **What every operation of a run keeps holds before and after each of them.** -/
theorem run_invariant {P : Stage σ → Prop} {Q : Outcome Answer → Prop}
    (hperform : ∀ (stage : Stage σ) (operation : Operation), P stage →
      Q (stage.perform operation).1 → P (stage.perform operation).2)
    {stage : Stage σ} (h : P stage) {operations : List Operation}
    (hoperations : ∀ outcome ∈ (stage.run operations).1, Q outcome) (count : Nat) :
    P (stage.run (operations.take count)).2 := by
  induction operations generalizing stage count with
  | nil =>
    rw [List.take_nil]
    exact h
  | cons operation later ih =>
    cases count with
    | zero => exact h
    | succ count =>
      have hfirst : Q (stage.perform operation).1 :=
        hoperations _ List.mem_cons_self
      exact ih (hperform stage operation h hfirst)
        (fun outcome hmem => hoperations outcome (List.mem_cons_of_mem _ hmem)) count

end Stage

end KernelProbe
