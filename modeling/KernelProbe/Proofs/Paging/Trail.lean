import KernelProbe.Paging.Dump

/-!
# The trail of a dump

While page tables are walked, tables are read and entries looked at, and nothing else happens,
whatever the tables hold. Joining the mappings and writing down the ranges add nothing to it.

* `Event.ofWalk` -- the events of a walk;
* `Traversal.Notes` -- what all events of a traversal are;
* `Range.ofWalk_lines` -- the events of the walk for a dump.
-/

namespace KernelProbe

/-- Whether it is an event of a walk: the reading of a table, or the look at an entry. -/
def Event.ofWalk : Event → Bool
  | .tableRead _ => true
  | .entryVisited _ _ _ _ => true
  | _ => false

/-- All events of all pulls are such events. -/
def Traversal.Notes (σ : Type) {α : Type} [Traversal σ α] (P : Event → Prop) : Prop :=
  ∀ (target : Target) (s : σ), ∀ event ∈ (pull target s).events, P event

namespace Walk

theorem ofWalk_note (table : Table) (level index : Nat) (entry : Entry) :
    ∀ event ∈ note table level index entry, event.ofWalk = true := by
  intro event hmem
  rw [note] at hmem
  split at hmem
  · obtain rfl := Array.mem_singleton.mp hmem
    rfl
  · exact absurd hmem (Array.not_mem_empty event)

theorem ofWalk_step {target : Target} {cursors : List Cursor} {pull : Pull (List Cursor) Mapping}
    (h : step target cursors = some pull) : ∀ event ∈ pull.events, event.ofWalk = true := by
  cases cursors with
  | nil => cases h
  | cons cursor outer =>
    obtain ⟨table, level, next, base⟩ := cursor
    have hnote := ofWalk_note table level next
    rw [step] at h
    split at h
    · dsimp only at h
      split at h
      · cases h
        exact hnote _
      · cases h
        exact hnote _
      · cases h
        exact hnote _
      · split at h
        · cases h
          exact Array.forall_mem_push.mpr ⟨rfl, hnote _⟩
        · cases h
          exact Array.forall_mem_push.mpr ⟨rfl, hnote _⟩
    · cases h
      exact Array.forall_mem_empty _

theorem ofWalk_advance {target : Target} {events : Array Event} {cursors : List Cursor}
    (h : ∀ event ∈ events, event.ofWalk = true) :
    ∀ event ∈ (advance target events cursors).events, event.ofWalk = true := by
  fun_induction advance target events cursors with
  | case1 => exact h
  | case2 events cursors seen rest hstep ih =>
    exact ih (Array.forall_mem_append.mpr ⟨h, ofWalk_step hstep⟩)
  | case3 events cursors seen item rest hstep =>
    exact Array.forall_mem_append.mpr ⟨h, ofWalk_step hstep⟩

/-- **A walk reads tables and looks at entries.** -/
theorem notes : Traversal.Notes Walk fun event => event.ofWalk = true := by
  intro target walk
  cases walk with
  | unread root =>
    have hroot : ∀ event ∈ #[Event.tableRead root], event.ofWalk = true := fun event hmem => by
      obtain rfl := Array.mem_singleton.mp hmem
      rfl
    show ∀ event ∈ (pull target (.unread root)).events, event.ofWalk = true
    rw [pull]
    split
    · exact ofWalk_advance hroot
    · exact hroot
  | inside cursors => exact ofWalk_advance (Array.forall_mem_empty _)

end Walk

section Notes

variable {σ α β : Type} {P : Event → Prop} {target : Target} {events : Array Event}

theorem Traversal.Notes.append [Traversal σ α] (h : Notes σ P) {s rest : σ} {seen : Array Event}
    {item : Option (Except Fault α)} (hpull : pull target s = ⟨seen, item, rest⟩)
    (hevents : ∀ event ∈ events, P event) : ∀ event ∈ events ++ seen, P event := by
  have hseen := h target s
  rw [hpull] at hseen
  exact Array.forall_mem_append.mpr ⟨hevents, hseen⟩

theorem Joining.forall_gather [Traversal σ Mapping] (h : Traversal.Notes σ P)
    {held : Option Range} {source : σ} (hevents : ∀ event ∈ events, P event) :
    ∀ event ∈ (gather target events held source).events, P event := by
  fun_induction gather target events held source with
  | case1 events held source seen rest hpull => exact h.append hpull hevents
  | case2 events held source seen fault rest hpull => exact h.append hpull hevents
  | case3 events source seen mapping rest hpull ih => exact ih (h.append hpull hevents)
  | case4 events source seen mapping rest hpull range joined hjoin ih =>
    exact ih (h.append hpull hevents)
  | case5 events source seen mapping rest hpull range hjoin => exact h.append hpull hevents

/-- Joining adds no events. -/
theorem Joining.notes [Traversal σ Mapping] (h : Traversal.Notes σ P) :
    Traversal.Notes (Joining σ) P := fun _ _ =>
  forall_gather h (Array.forall_mem_empty _)

/-- A fold adds the events of its own steps. -/
theorem Traversal.forall_fold [Traversal σ α] (h : Notes σ P) {f : β → Except Fault α → Outcome β}
    (hf : ∀ state item, ∀ event ∈ (f state item).events, P event) {state : β} {s : σ}
    (hevents : ∀ event ∈ events, P event) :
    ∀ event ∈ (fold target f events state s).events, P event := by
  fun_induction fold target f events state s with
  | case1 events state s seen rest hpull => exact h.append hpull hevents
  | case2 events state s seen item rest hpull more fault hstep =>
    have hmore := hf state item
    rw [hstep] at hmore
    exact Array.forall_mem_append.mpr ⟨h.append hpull hevents, hmore⟩
  | case3 events state s seen item rest hpull more next hstep ih =>
    have hmore := hf state item
    rw [hstep] at hmore
    exact ih (Array.forall_mem_append.mpr ⟨h.append hpull hevents, hmore⟩)

end Notes

/-- **The events of the walk for a dump.** -/
theorem Range.ofWalk_lines (target : Target) (root : PAddr) :
    ∀ event ∈ (lines target root).events, event.ofWalk = true :=
  Traversal.forall_fold (Joining.notes Walk.notes)
    (fun _ _ => Array.forall_mem_empty _) (Array.forall_mem_empty _)

end KernelProbe
