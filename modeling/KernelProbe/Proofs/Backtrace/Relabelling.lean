import KernelProbe.Backtrace.Frame
import Mathlib.Data.List.Forall2

/-!
# Frames that are relabelled

A filter shows each frame of a backtrace in its place. It goes by the name of a frame, which it
never changes: the frame that traps enter the kernel through gets another function and other
arguments, and no other frame is touched. Since the new arguments come from the registers, which it
does not change either, it makes no difference if the frames have been through a filter before.

* `Frame.relabelled_of_name`, `Frame.relabelled_of_ne` -- one frame;
* `ShownBy` -- what a filter leaves of a frame, and what it puts in its place;
* `FrameFilter.foldl_apply` -- a row of filters;
* `FrameFilter.apply_transparent` -- a filter changes nothing else, and nothing twice.
-/

namespace KernelProbe

variable {config : Config} {frame : Frame}

/-! ## 1. One frame -/

namespace Frame

theorem isTrapEntry_iff : frame.isTrapEntry config = true ↔
    frame.name = some config.trapEntrySymbol :=
  beq_iff_eq

/-- The frame that traps enter the kernel through. -/
theorem relabelled_of_name (h : frame.name = some config.trapEntrySymbol) :
    frame.relabelled config =
      { frame with
        function := some config.trapEntryLabel
        arguments := causeArgument config frame.registers } :=
  if_pos (isTrapEntry_iff.mpr h)

theorem arguments_of_name (h : frame.name = some config.trapEntrySymbol) :
    (frame.relabelled config).arguments = causeArgument config frame.registers :=
  congrArg arguments (relabelled_of_name h)

/-- All other frames. -/
theorem relabelled_of_ne (h : frame.name ≠ some config.trapEntrySymbol) :
    frame.relabelled config = frame :=
  if_neg (mt isTrapEntry_iff.mp h)

/-- **A frame is relabelled once.** What the new function and the new arguments are made from is as
    it was. -/
theorem relabelled_relabelled (config : Config) (frame : Frame) :
    (frame.relabelled config).relabelled config = frame.relabelled config := by
  by_cases h : frame.name = some config.trapEntrySymbol
  · rw [relabelled_of_name h]
    exact relabelled_of_name h
  · rw [relabelled_of_ne h, relabelled_of_ne h]

end Frame

/-- **What a filter shows of a frame.** Name, registers and file are those of the frame, and so are
    function and arguments if the filter is switched off or the frame has another name than the one
    that traps enter the kernel through. Else the function is the label and the arguments are the
    cause of the trap. -/
structure ShownBy (filter : FrameFilter) (config : Config) (frame shown : Frame) : Prop where
  name : shown.name = frame.name
  registers (register : String) : shown.registers register = frame.registers register
  file : shown.file = frame.file
  untouched (h : filter.enabled = false ∨ frame.name ≠ some config.trapEntrySymbol) :
    shown.function = frame.function ∧ ∀ target, shown.arguments target = frame.arguments target
  relabelled (henabled : filter.enabled = true) (hname : frame.name = some config.trapEntrySymbol) :
    shown.function = some config.trapEntryLabel ∧
      ∀ target, shown.arguments target = Frame.causeArgument config frame.registers target

/-- A frame may be shown as it is if nothing has to be put in its place. -/
theorem ShownBy.of_untouched {filter : FrameFilter}
    (h : filter.enabled = false ∨ frame.name ≠ some config.trapEntrySymbol) :
    ShownBy filter config frame frame where
  name := rfl
  registers _ := rfl
  file := rfl
  untouched _ := ⟨rfl, fun _ => rfl⟩
  relabelled henabled hname := by
    rcases h with h | h
    · cases h.symm.trans henabled
    · exact absurd hname h

/-- A filter that is switched on shows a frame as it is relabelled. -/
theorem ShownBy.of_enabled {filter : FrameFilter} (h : filter.enabled = true) (frame : Frame) :
    ShownBy filter config frame (frame.relabelled config) := by
  by_cases hname : frame.name = some config.trapEntrySymbol
  · rw [Frame.relabelled_of_name hname]
    exact {
      name := rfl
      registers := fun _ => rfl
      file := rfl
      untouched := fun hother => absurd hother (by simp [h, hname])
      relabelled := fun _ _ => ⟨rfl, fun _ => rfl⟩ }
  · rw [Frame.relabelled_of_ne hname]
    exact .of_untouched (.inr hname)

namespace FrameFilter

/-! ## 2. All frames, and several filters -/

theorem apply_of_enabled {filter : FrameFilter} (h : filter.enabled = true) (frames : List Frame) :
    filter.apply config frames = frames.map (Frame.relabelled config) :=
  if_pos h

theorem apply_of_disabled {filter : FrameFilter} (h : filter.enabled = false)
    (frames : List Frame) : filter.apply config frames = frames :=
  if_neg (Bool.eq_false_iff.mp h)

/-- **Frames that have been relabelled** are shown by any filter as they are. -/
theorem apply_map_relabelled (filter : FrameFilter) (config : Config) (frames : List Frame) :
    filter.apply config (frames.map (Frame.relabelled config)) =
      frames.map (Frame.relabelled config) := by
  cases h : filter.enabled with
  | false => exact apply_of_disabled h _
  | true =>
    rw [apply_of_enabled h, List.map_map]
    exact List.map_congr_left fun frame _ => frame.relabelled_relabelled config

/-- **A row of filters**, one after the other, shows what the first one of them shows that is
    switched on. -/
theorem foldl_apply (filters : List FrameFilter) (config : Config) (frames : List Frame) :
    filters.foldl (fun frames filter => filter.apply config frames) frames =
      if filters.any (·.enabled) then frames.map (Frame.relabelled config) else frames := by
  -- Behind the first filter that is switched on there is nothing left to do.
  have hrest : ∀ filters : List FrameFilter,
      filters.foldl (fun frames filter => filter.apply config frames)
        (frames.map (Frame.relabelled config)) = frames.map (Frame.relabelled config) := by
    intro filters
    induction filters with
    | nil => rfl
    | cons filter filters ih => rw [List.foldl_cons, apply_map_relabelled, ih]
  induction filters with
  | nil => rfl
  | cons filter filters ih =>
    rw [List.foldl_cons, List.any_cons]
    cases h : filter.enabled with
    | false => rw [apply_of_disabled h, ih, Bool.false_or]
    | true => rw [apply_of_enabled h, hrest, Bool.true_or, if_pos rfl]

/-- Each frame is shown in its place. -/
theorem forall₂_apply (filter : FrameFilter) (config : Config) (frames : List Frame) :
    List.Forall₂ (ShownBy filter config) frames (filter.apply config frames) := by
  cases h : filter.enabled with
  | false =>
    rw [apply_of_disabled h]
    exact List.forall₂_same.mpr fun frame _ => .of_untouched (.inl h)
  | true =>
    rw [apply_of_enabled h, List.forall₂_map_right_iff]
    exact List.forall₂_same.mpr fun frame _ => .of_enabled h frame

/-! ## 3. Nothing else, and nothing twice -/

/-- **A filter changes nothing else, and nothing twice.** It shows each frame in its place. If it is
    switched off, or the frame has another name than the one that traps enter the kernel through,
    all that can be asked of the frame is as it was, in every kernel; else function and arguments
    are others, and the rest is as it was. Frames that have been through a filter, be it switched on
    or off, are shown by one that is switched on just as they are shown without the first one:
    whatever can be asked of them has the same answer. -/
theorem apply_transparent (filter : FrameFilter) (config : Config) (frames : List Frame) :
    List.Forall₂ (ShownBy filter config) frames (filter.apply config frames) ∧
    ∀ again once : FrameFilter, again.enabled = true → once.enabled = true →
      again.apply config (filter.apply config frames) = once.apply config frames := by
  refine ⟨forall₂_apply filter config frames, fun again once hagain honce => ?_⟩
  have hboth := foldl_apply [filter, again] config frames
  rw [apply_of_enabled honce]
  simpa [hagain] using hboth

/-- Three frames: one that a trap has entered the kernel through and that has another function on
    show, one that only shows the name of such a frame, and one of which nothing is known. -/
def masked : List Frame :=
  [⟨some "trap_from_user", fun _ => none, some "interrupted", fun _ => .ok [], some "trap.c"⟩,
    ⟨some "schedule", fun _ => none, some "trap_from_user", fun _ => .ok [], none⟩,
    ⟨none, fun _ => none, none, fun _ => .ok [], none⟩]

/-- The name that a frame has counts, not the one that it shows. Being relabelled twice is being
    relabelled once. -/
theorem apply_transparent_masked :
    (({} : FrameFilter).apply {} masked).map Frame.function =
      [some ({} : Config).trapEntryLabel, some "trap_from_user", none] ∧
    ({} : FrameFilter).apply {} (({} : FrameFilter).apply {} masked) =
      ({} : FrameFilter).apply {} masked ∧
    List.Forall₂ (ShownBy {} {}) masked (({} : FrameFilter).apply {} masked) := by
  obtain ⟨hshown, htwice⟩ := apply_transparent {} {} masked
  exact ⟨rfl, htwice {} {} rfl rfl, hshown⟩

end FrameFilter

end KernelProbe
