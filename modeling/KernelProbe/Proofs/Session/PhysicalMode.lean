import KernelProbe.Image.Basic
import KernelProbe.Proofs.Paging.Trail
import KernelProbe.Proofs.Session.Operations

/-!
# The physical mode

A dump of the address space asks for physical addressing, walks the page tables, and asks for normal
addressing, whatever becomes of the walk. If the paging register cannot be read, it asks for
nothing; if it is refused the physical mode, it reads nothing. So while no kernel stays in physical
mode when it is asked to leave it, every operation on a session finds the kernel in normal mode and
leaves it so.

* `Bracketed` -- how a dump uses the physical mode;
* `Watched` -- a kernel with a record of what it was asked;
* `NormalMode` -- what requests do to the mode of a kernel;
* `Tracked` -- a kernel with the mode that granted requests have led to, whatever the kernel is;
* `NormalMode.run`, `Stage.tracked_run_normal` -- runs of operations;
* `Stage.physical_mode_bracketed` -- the dump in a session, and all the rest together.
-/

namespace KernelProbe

open Event (modesAsked)

variable {σ : Type} [Debuggee σ]

/-! ## 1. One dump -/

/-- What happens before a dump enters physical mode, and the request to. -/
def Satp.entering (satp : Satp) : Array Event :=
  (if satp.mode = .sv39 then #[] else #[.modeNotSv39 satp.mode]).push (.physicalModeAsked true)

/-- What is noted of the answer to the request to leave physical mode. -/
def leavingNote : Except Fault Unit → Array Event
  | .ok () => #[]
  | .error fault => #[.physicalModeKept fault]

/-- **The three ways that a dump can go**: the paging register cannot be read, the physical mode is
    refused, or it is entered. -/
theorem dump_ways (register : String) (s : σ) :
    (∃ fault, (Debuggee.view s).register register = .error fault) ∨
      (∃ bits fault after, (Debuggee.view s).register register = .ok bits ∧
        Debuggee.setPhysical true s = (.error fault, after)) ∨
      ∃ bits inside, (Debuggee.view s).register register = .ok bits ∧
        Debuggee.setPhysical true s = (.ok (), inside) := by
  cases (Debuggee.view s).register register with
  | error fault => exact .inl ⟨fault, rfl⟩
  | ok bits =>
    obtain ⟨answer, after⟩ := Debuggee.setPhysical true s
    cases answer with
    | error fault => exact .inr (.inl ⟨bits, fault, after, rfl, rfl⟩)
    | ok => exact .inr (.inr ⟨bits, after, rfl, rfl⟩)

section Equations

/- What comes of each. -/

variable {register : String} {s : σ} {bits : UInt64} {fault : Fault}

theorem dumpPages_unread (hregister : (Debuggee.view s).register register = .error fault) :
    dumpPages register s = (⟨#[], .error fault⟩, s) := by
  rw [dumpPages, hregister]

theorem dumpPages_refused (hregister : (Debuggee.view s).register register = .ok bits) {after : σ}
    (henter : Debuggee.setPhysical true s = (.error fault, after)) :
    dumpPages register s = (⟨(Satp.mk bits).entering, .error fault⟩, after) := by
  rw [dumpPages, hregister]
  dsimp only
  rw [henter]
  rfl

theorem dumpPages_entered (hregister : (Debuggee.view s).register register = .ok bits) {inside : σ}
    (henter : Debuggee.setPhysical true s = (.ok (), inside)) :
    dumpPages register s =
      (⟨((Satp.mk bits).entering ++
            (Range.lines (Debuggee.view inside) (Satp.mk bits).root).events).push
          (.physicalModeAsked false) ++ leavingNote (Debuggee.setPhysical false inside).1,
        (Range.lines (Debuggee.view inside) (Satp.mk bits).root).result.map
          fun lines => "\n".intercalate lines.toList⟩,
        (Debuggee.setPhysical false inside).2) := by
  rw [dumpPages, hregister]
  dsimp only
  rw [henter]
  dsimp only
  split
  next after hleave =>
    rw [hleave]
    rfl
  next fault after hleave =>
    rw [hleave]
    rfl

end Equations

/-- **How a dump uses the physical mode**: `answer` is what it gives for a kernel in the state `s`.
    Without the paging register nothing is asked of the kernel. If the physical mode is refused,
    that is the answer, and no table is read. Otherwise all tables are read between the two
    requests, and the answer is what the walk gives in physical mode, whether the kernel leaves it
    or not; if it does not, that is noted. -/
structure Bracketed (register : String) (s : σ) (answer : Outcome String × σ) : Prop where
  unread : ∀ fault, (Debuggee.view s).register register = .error fault →
    answer = (⟨#[], .error fault⟩, s)
  refused : ∀ bits fault after, (Debuggee.view s).register register = .ok bits →
    Debuggee.setPhysical true s = (.error fault, after) →
      answer.1.result = .error fault ∧ answer.2 = after ∧
        modesAsked answer.1.events.toList = [true] ∧
        ∀ address, .tableRead address ∉ answer.1.events.toList
  entered : ∀ bits inside, (Debuggee.view s).register register = .ok bits →
    Debuggee.setPhysical true s = (.ok (), inside) →
      answer.1.result = (Range.lines (Debuggee.view inside) (Satp.mk bits).root).result.map
          (fun lines => "\n".intercalate lines.toList) ∧
        answer.2 = (Debuggee.setPhysical false inside).2 ∧
        modesAsked answer.1.events.toList = [true, false] ∧
        ∃ before after, answer.1.events.toList =
            before ++ .physicalModeAsked true ::
              (Range.lines (Debuggee.view inside) (Satp.mk bits).root).events.toList ++
                .physicalModeAsked false :: after ∧
          ∀ address, .tableRead address ∉ before ++ after
  kept : ∀ fault, .physicalModeKept fault ∈ answer.1.events ↔
    ∃ bits inside, (Debuggee.view s).register register = .ok bits ∧
      Debuggee.setPhysical true s = (.ok (), inside) ∧
      (Debuggee.setPhysical false inside).1 = .error fault

theorem modesAsked_append (events later : List Event) :
    modesAsked (events ++ later) = modesAsked events ++ modesAsked later :=
  List.filterMap_append

theorem modesAsked_cons (physical : Bool) (events : List Event) :
    modesAsked (.physicalModeAsked physical :: events) = physical :: modesAsked events := rfl

/-- A walk asks for no mode. -/
theorem modesAsked_ofWalk {events : List Event} (h : ∀ event ∈ events, event.ofWalk = true) :
    modesAsked events = [] := by
  refine List.filterMap_eq_nil_iff.mpr fun event hmem => ?_
  have hevent := h event hmem
  cases event with
  | physicalModeAsked physical => cases hevent
  | _ => rfl

/-- Events among which there is no request for a mode, and no table is read. -/
def Quiet (events : List Event) : Prop :=
  modesAsked events = [] ∧ ∀ address, .tableRead address ∉ events

theorem quiet_nil : Quiet [] :=
  ⟨rfl, fun _ => List.not_mem_nil⟩

theorem quiet_entering (satp : Satp) :
    ∃ before, satp.entering.toList = before ++ [.physicalModeAsked true] ∧ Quiet before := by
  rw [Satp.entering, Array.toList_push]
  refine ⟨_, rfl, ?_⟩
  split
  · exact quiet_nil
  · refine ⟨rfl, fun address hmem => ?_⟩
    cases List.mem_singleton.mp hmem

theorem quiet_leavingNote (left : Except Fault Unit) : Quiet (leavingNote left).toList := by
  cases left with
  | ok => exact quiet_nil
  | error fault =>
    refine ⟨rfl, fun address hmem => ?_⟩
    cases List.mem_singleton.mp hmem

theorem not_kept_entering (satp : Satp) (fault : Fault) :
    .physicalModeKept fault ∉ satp.entering := by
  intro hmem
  rw [Satp.entering] at hmem
  rcases Array.mem_push.mp hmem with hmem | hmem
  · split at hmem
    · exact Array.not_mem_empty _ hmem
    · cases Array.mem_singleton.mp hmem
  · cases hmem

theorem kept_leavingNote (fault : Fault) (left : Except Fault Unit) :
    .physicalModeKept fault ∈ leavingNote left ↔ left = .error fault := by
  cases left with
  | ok => exact ⟨fun hmem => absurd hmem (Array.not_mem_empty _), fun h => by cases h⟩
  | error kept =>
    constructor
    · intro hmem
      cases Array.mem_singleton.mp hmem
      rfl
    · intro h
      cases h
      exact Array.mem_singleton_self _

/-- That the kernel stayed in physical mode is noted if and only if it did. -/
theorem kept_dumpPages (register : String) (s : σ) (fault : Fault) :
    .physicalModeKept fault ∈ (dumpPages register s).1.events ↔
      ∃ bits inside, (Debuggee.view s).register register = .ok bits ∧
        Debuggee.setPhysical true s = (.ok (), inside) ∧
        (Debuggee.setPhysical false inside).1 = .error fault := by
  rcases dump_ways register s with ⟨fault', hregister⟩ | ⟨bits, fault', after, hregister, henter⟩ |
    ⟨bits, inside, hregister, henter⟩
  · rw [dumpPages_unread hregister, hregister]
    constructor
    · intro hmem
      exact absurd hmem (Array.not_mem_empty _)
    · rintro ⟨bits, inside, hbits, -⟩
      cases hbits
  · rw [dumpPages_refused hregister henter, henter]
    constructor
    · intro hmem
      exact absurd hmem (not_kept_entering _ _)
    · rintro ⟨bits, inside, -, hinside, -⟩
      cases hinside
  · rw [dumpPages_entered hregister henter, henter, Array.mem_append, kept_leavingNote]
    constructor
    · rintro (hmem | hleave)
      · rcases Array.mem_push.mp hmem with hmem | hmem
        · rcases Array.mem_append.mp hmem with hmem | hmem
          · exact absurd hmem (not_kept_entering _ _)
          · cases Range.ofWalk_lines _ _ _ hmem
        · cases hmem
      · exact ⟨bits, inside, hregister, rfl, hleave⟩
    · rintro ⟨bits', inside', -, hinside, hleave⟩
      cases hinside
      exact .inr hleave

theorem dumpPages_bracketed (register : String) (s : σ) :
    Bracketed register s (dumpPages register s) where
  unread fault hregister := dumpPages_unread hregister
  refused bits fault after hregister henter := by
    obtain ⟨before, hentering, hbefore, hreads⟩ := quiet_entering (Satp.mk bits)
    rw [dumpPages_refused hregister henter]
    refine ⟨rfl, rfl, ?_, fun address hmem => ?_⟩
    · rw [hentering, modesAsked_append, hbefore]
      rfl
    · rw [hentering] at hmem
      rcases List.mem_append.mp hmem with hmem | hmem
      · exact hreads address hmem
      · cases List.mem_singleton.mp hmem
  entered bits inside hregister henter := by
    obtain ⟨before, hentering, hbefore, hreads⟩ := quiet_entering (Satp.mk bits)
    obtain ⟨hafter, hreads'⟩ := quiet_leavingNote (Debuggee.setPhysical false inside).1
    have hwalk := modesAsked_ofWalk fun event hmem =>
      Range.ofWalk_lines (Debuggee.view inside) (Satp.mk bits).root event
        (Array.mem_toList_iff.mp hmem)
    have hevents : (dumpPages register s).1.events.toList =
        before ++ .physicalModeAsked true ::
          (Range.lines (Debuggee.view inside) (Satp.mk bits).root).events.toList ++
            .physicalModeAsked false ::
              (leavingNote (Debuggee.setPhysical false inside).1).toList := by
      rw [dumpPages_entered hregister henter]
      simp only [Array.toList_append, Array.toList_push, hentering, List.append_assoc,
        List.cons_append, List.nil_append]
    refine ⟨?_, ?_, ?_, before, _, hevents, fun address hmem => ?_⟩
    · rw [dumpPages_entered hregister henter]
    · rw [dumpPages_entered hregister henter]
    · rw [hevents, modesAsked_append, modesAsked_append, hbefore, modesAsked_cons,
        modesAsked_cons, hwalk, hafter]
      rfl
    · rcases List.mem_append.mp hmem with hmem | hmem
      · exact hreads address hmem
      · exact hreads' address hmem
  kept fault := kept_dumpPages register s fault

/-! ## 2. What is asked of the kernel -/

/-- A kernel with a record of what its mode was asked to be, in order. -/
structure Watched (σ : Type) where
  kernel : σ
  asked : List Bool

instance : Debuggee (Watched σ) where
  view watched := Debuggee.view watched.kernel
  setPhysical physical watched :=
    ((Debuggee.setPhysical physical watched.kernel).1,
      ⟨(Debuggee.setPhysical physical watched.kernel).2, watched.asked ++ [physical]⟩)

/-- **The requests among the events of a dump are those that the kernel was asked.** -/
theorem dumpPages_watched (register : String) (s : σ) (asked : List Bool) :
    dumpPages register (⟨s, asked⟩ : Watched σ) =
      ((dumpPages register s).1, ⟨(dumpPages register s).2,
        asked ++ modesAsked (dumpPages register s).1.events.toList⟩) := by
  have hbracketed := dumpPages_bracketed register s
  have hview : Debuggee.view (⟨s, asked⟩ : Watched σ) = Debuggee.view s := rfl
  have hset : Debuggee.setPhysical true (⟨s, asked⟩ : Watched σ) =
      ((Debuggee.setPhysical true s).1, ⟨(Debuggee.setPhysical true s).2, asked ++ [true]⟩) := rfl
  rcases dump_ways register s with ⟨fault, hregister⟩ | ⟨bits, fault, after, hregister, henter⟩ |
    ⟨bits, inside, hregister, henter⟩
  · rw [dumpPages_unread hregister, dumpPages_unread (hview ▸ hregister)]
    exact congrArg _ (congrArg _ (List.append_nil asked).symm)
  · obtain ⟨-, -, hasked, -⟩ := hbracketed.refused bits fault after hregister henter
    rw [henter] at hset
    rw [hasked, dumpPages_refused hregister henter, dumpPages_refused (hview ▸ hregister) hset]
  · obtain ⟨-, -, hasked, -⟩ := hbracketed.entered bits inside hregister henter
    rw [henter] at hset
    rw [hasked, dumpPages_entered hregister henter, dumpPages_entered (hview ▸ hregister) hset]
    refine Prod.ext rfl ?_
    show (⟨_, asked ++ [true] ++ [false]⟩ : Watched σ) = _
    rw [List.append_assoc]
    rfl

/-! ## 3. The mode of a kernel -/

/-- **What requests do to a mode**: a kernel that has left physical mode is in normal mode, and one
    that was refused physical mode stays in normal mode, since a request that is refused switches
    nothing. For the mode that granted requests have led to this is so of every kernel
    (`Tracked.normalMode`); a mode that the kernel has by itself may change on other grounds. -/
structure NormalMode (normal : σ → Prop) : Prop where
  left : ∀ s after, Debuggee.setPhysical false s = (.ok (), after) → normal after
  refused : ∀ s fault after, normal s →
    Debuggee.setPhysical true s = (.error fault, after) → normal after

theorem Image.normalMode : NormalMode fun image : Image => image.physicalMode = false where
  left image after h := by
    have hset : image.setPhysical false = (.ok (), after) := h
    rw [setPhysical] at hset
    split at hset
    · cases hset
    · cases hset
      rfl
  refused image fault after hnormal h := by
    have hset : image.setPhysical true = (.error fault, after) := h
    rw [setPhysical] at hset
    split at hset
    · cases hset
      exact hnormal
    · cases hset

/-- A kernel with the mode that the requests which it granted have led to. -/
structure Tracked (σ : Type) where
  kernel : σ
  physicalMode : Bool

/-- The mode after the answer to a request: a request that is refused leaves it as it is. -/
def modeAfter (asked physicalMode : Bool) : Except Fault Unit → Bool
  | .ok () => asked
  | .error _ => physicalMode

instance : Debuggee (Tracked σ) where
  view tracked := Debuggee.view tracked.kernel
  setPhysical physical tracked :=
    let (answer, after) := Debuggee.setPhysical physical tracked.kernel
    (answer, ⟨after, modeAfter physical tracked.physicalMode answer⟩)

/-- **Every kernel has a mode**: the one that granted requests have led to. -/
theorem Tracked.normalMode :
    NormalMode fun tracked : Tracked σ => tracked.physicalMode = false where
  left tracked after h := by
    have hanswer : (Debuggee.setPhysical false tracked.kernel).1 = .ok () := congrArg Prod.fst h
    have hafter : modeAfter false tracked.physicalMode
        (Debuggee.setPhysical false tracked.kernel).1 = after.physicalMode :=
      congrArg (fun reply => reply.2.physicalMode) h
    rw [← hafter, hanswer]
    rfl
  refused tracked fault after hnormal h := by
    have hanswer : (Debuggee.setPhysical true tracked.kernel).1 = .error fault :=
      congrArg Prod.fst h
    have hafter : modeAfter true tracked.physicalMode
        (Debuggee.setPhysical true tracked.kernel).1 = after.physicalMode :=
      congrArg (fun reply => reply.2.physicalMode) h
    rw [← hafter, hanswer]
    exact hnormal

/-- A dump of a tracked kernel is one of the kernel. -/
theorem dumpPages_tracked (register : String) (tracked : Tracked σ) :
    (dumpPages register tracked).1 = (dumpPages register tracked.kernel).1 ∧
      (dumpPages register tracked).2.kernel = (dumpPages register tracked.kernel).2 := by
  have hview : Debuggee.view tracked = Debuggee.view tracked.kernel := rfl
  have hset : Debuggee.setPhysical true tracked =
      ((Debuggee.setPhysical true tracked.kernel).1,
        ⟨(Debuggee.setPhysical true tracked.kernel).2, modeAfter true tracked.physicalMode
          (Debuggee.setPhysical true tracked.kernel).1⟩) := rfl
  rcases dump_ways register tracked.kernel with ⟨fault, hregister⟩ |
    ⟨bits, fault, after, hregister, henter⟩ | ⟨bits, inside, hregister, henter⟩
  · rw [dumpPages_unread hregister, dumpPages_unread (hview ▸ hregister)]
    exact ⟨rfl, rfl⟩
  · rw [henter] at hset
    rw [dumpPages_refused hregister henter, dumpPages_refused (hview ▸ hregister) hset]
    exact ⟨rfl, rfl⟩
  · rw [henter] at hset
    rw [dumpPages_entered hregister henter, dumpPages_entered (hview ▸ hregister) hset]
    exact ⟨rfl, rfl⟩

namespace Stage

/-- The stage without the record of the mode. -/
def untracked (stage : Stage (Tracked σ)) : Stage σ :=
  ⟨stage.session, stage.kernel.kernel⟩

theorem perform_tracked (stage : Stage (Tracked σ)) (operation : Operation) :
    (stage.perform operation).1 = (stage.untracked.perform operation).1 ∧
      (stage.perform operation).2.untracked = (stage.untracked.perform operation).2 := by
  have hpages : (stage.perform .dumpPages).1 = (stage.untracked.perform .dumpPages).1 ∧
      (stage.perform .dumpPages).2.untracked = (stage.untracked.perform .dumpPages).2 := by
    obtain ⟨houtcome, hkernel⟩ := dumpPages_tracked stage.session.config.satpRegister stage.kernel
    exact ⟨congrArg (Outcome.map Answer.text) houtcome, congrArg (Stage.mk stage.session) hkernel⟩
  cases operation with
  | dumpPages => exact hpages
  | execute line =>
    rw [perform, perform, Session.execute, Session.execute]
    cases Command.parse line with
    | pages => exact hpages
    | _ => exact ⟨rfl, rfl⟩
  | showElements value =>
    rw [perform, perform, untracked]
    dsimp only
    cases stage.session.listing? value <;> exact ⟨rfl, rfl⟩
  | _ => exact ⟨rfl, rfl⟩

/-- **The record of the mode changes nothing else.** Operations on a tracked kernel give what they
    give on the kernel, and lead to the same kernel. -/
theorem run_tracked (stage : Stage (Tracked σ)) (operations : List Operation) :
    (stage.run operations).1 = (stage.untracked.run operations).1 ∧
      (stage.run operations).2.untracked = (stage.untracked.run operations).2 := by
  induction operations generalizing stage with
  | nil => exact ⟨rfl, rfl⟩
  | cons operation later ih =>
    obtain ⟨houtcome, hnext⟩ := perform_tracked stage operation
    obtain ⟨houtcomes, hlast⟩ := ih (stage.perform operation).2
    rw [hnext] at houtcomes hlast
    refine ⟨?_, hlast⟩
    show (stage.perform operation).1 :: ((stage.perform operation).2.run later).1 =
      (stage.untracked.perform operation).1 :: ((stage.untracked.perform operation).2.run later).1
    rw [houtcome, houtcomes]

end Stage

/-! ## 4. Runs of operations -/

/-- A dump leaves the kernel in normal mode, unless that fails. -/
theorem NormalMode.dumpPages {normal : σ → Prop} (hnormal : NormalMode normal) (register : String)
    {s : σ} (h : normal s)
    (hkept : ∀ fault, .physicalModeKept fault ∉ (dumpPages register s).1.events) :
    normal (KernelProbe.dumpPages register s).2 := by
  rcases dump_ways register s with ⟨fault, hregister⟩ | ⟨bits, fault, after, hregister, henter⟩ |
    ⟨bits, inside, hregister, henter⟩
  · rw [dumpPages_unread hregister]
    exact h
  · rw [dumpPages_refused hregister henter]
    exact hnormal.refused s fault after h henter
  · rw [dumpPages_entered hregister henter]
    cases hleave : Debuggee.setPhysical false inside with
    | mk answer after =>
      cases answer with
      | ok => exact hnormal.left inside after hleave
      | error fault =>
        have hfailed : (Debuggee.setPhysical false inside).1 = .error fault := by rw [hleave]
        exact absurd ((kept_dumpPages register s fault).mpr
          ⟨bits, inside, hregister, henter, hfailed⟩) (hkept fault)

/-- **A run leaves the kernel in normal mode** between all its operations, unless a dump fails to. -/
theorem NormalMode.run {normal : σ → Prop} (hnormal : NormalMode normal) {stage : Stage σ}
    (h : normal stage.kernel) {operations : List Operation}
    (hkept : ∀ outcome ∈ (stage.run operations).1,
      ∀ fault, .physicalModeKept fault ∉ outcome.events) (count : Nat) :
    normal (stage.run (operations.take count)).2.kernel := by
  refine Stage.run_invariant (P := fun stage => normal stage.kernel)
    (Q := fun outcome => ∀ fault, .physicalModeKept fault ∉ outcome.events) ?_ h hkept count
  intro stage operation h hkept
  rcases Stage.kernel_perform stage operation with hkernel | ⟨hevents, hkernel⟩
  · rw [hkernel]
    exact h
  · rw [hkernel]
    rw [hevents] at hkept
    exact hnormal.dumpPages _ h hkept

namespace Stage

/-- The stage with a record of the mode, which is the normal one at first. -/
def tracked (stage : Stage σ) : Stage (Tracked σ) :=
  ⟨stage.session, stage.kernel, false⟩

/-- **Whatever the kernel is**, the requests that it granted have led to normal mode between all
    operations of a run, unless it stayed in physical mode when asked to leave it. -/
theorem tracked_run_normal {stage : Stage σ} {operations : List Operation}
    (hkept : ∀ outcome ∈ (stage.run operations).1,
      ∀ fault, .physicalModeKept fault ∉ outcome.events) (count : Nat) :
    (stage.tracked.run (operations.take count)).2.kernel.physicalMode = false := by
  have houtcomes : (stage.tracked.run operations).1 = (stage.run operations).1 :=
    (run_tracked stage.tracked operations).1
  exact Tracked.normalMode.run rfl (houtcomes ▸ hkept) count

/-- **The physical mode is always left.** A dump in a session uses it as `Bracketed` says, asked for
    by name or by a line of text, and what its events say of the requests is what the kernel was
    asked. So over every run of operations in which the kernel never stays in physical mode when
    asked to leave it, a kernel in normal mode is so before and after every operation. -/
theorem physical_mode_bracketed :
    (∀ (session : Session) (s : σ),
      Bracketed session.config.satpRegister s (session.dumpPages s)) ∧
      (∀ (session : Session) (s : σ) (asked : List Bool),
        session.dumpPages (⟨s, asked⟩ : Watched σ) =
          ((session.dumpPages s).1, ⟨(session.dumpPages s).2,
            asked ++ modesAsked (session.dumpPages s).1.events.toList⟩)) ∧
      (∀ (session : Session) (s : σ) (line : String), Command.parse line = .pages →
        session.execute s line = ((session.dumpPages s).1, session, (session.dumpPages s).2)) ∧
      ∀ normal : σ → Prop, NormalMode normal → ∀ (stage : Stage σ) (operations : List Operation),
        normal stage.kernel →
        (∀ outcome ∈ (stage.run operations).1, ∀ fault, .physicalModeKept fault ∉ outcome.events) →
          ∀ count, normal (stage.run (operations.take count)).2.kernel := by
  refine ⟨fun session s => dumpPages_bracketed _ s,
    fun session s asked => dumpPages_watched _ s asked,
    fun session s line hpages => Session.execute_pages hpages,
    fun normal hnormal stage operations h hkept count => hnormal.run h hkept count⟩

/-- A kernel with a paging register, but with none of its tables. -/
def withoutTables : Stage Image :=
  ⟨.start {}, { Image.ofLayouts [] with registers := [("satp", 0x8000000000081000)] }⟩

/-- The walk cannot read a table, and the kernel is in normal mode for the next operation. -/
theorem physical_mode_bracketed_withoutTables :
    modesAsked (withoutTables.session.dumpPages withoutTables.kernel).1.events.toList =
        [true, false] ∧
      NormalMode (fun image : Image => image.physicalMode = false) ∧
      withoutTables.kernel.physicalMode = false ∧
      (∀ outcome ∈ (withoutTables.run [.dumpPages, .allocatorReport]).1,
        ∀ fault, .physicalModeKept fault ∉ outcome.events) ∧
      (withoutTables.run [.dumpPages]).2.kernel.physicalMode = false := by
  obtain ⟨hbracketed, -, -, hruns⟩ := @physical_mode_bracketed Image _
  have hdump := hbracketed withoutTables.session withoutTables.kernel
  have hkept : ∀ outcome ∈ (withoutTables.run [.dumpPages, .allocatorReport]).1,
      ∀ fault, .physicalModeKept fault ∉ outcome.events := by
    intro outcome hmem fault hkept
    rcases List.mem_cons.mp hmem with rfl | hmem
    · obtain ⟨bits, inside, -, henter, hleave⟩ := (hdump.kept fault).mp hkept
      cases henter
      cases hleave
    · cases List.mem_singleton.mp hmem
      exact Array.not_mem_empty _ hkept
  obtain ⟨-, -, hasked, -⟩ := hdump.entered _ _ rfl rfl
  exact ⟨hasked, Image.normalMode, rfl, hkept,
    hruns _ Image.normalMode withoutTables _ rfl hkept 1⟩

end Stage

end KernelProbe
