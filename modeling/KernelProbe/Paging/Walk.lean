import KernelProbe.Paging.Table
import KernelProbe.Traversal

/-!
# Walking the page tables

A walk visits the leaves of an Sv39 page table in ascending order of virtual addresses. It keeps the
tables that it is inside of, the innermost first, each with the index of its next entry, and works
through the entries one by one (`Walk.step`): an entry that maps nothing is passed over, a leaf
gives a mapping, a pointer opens the next table. A pointer at the lowest level is against the rules
of Sv39 and maps nothing.

A table is read when it is opened, the root at the first pull. A table that cannot be read ends the
walk with that fault.

* `Mapping` -- what a leaf maps;
* `Walk` -- the traversal of all mappings;
* `Walk.bound` -- falls with every step, whatever the tables hold, even if they point in circles.
-/

namespace KernelProbe

/-- The levels of an Sv39 page table. -/
abbrev tableLevels : Nat := 3

/-- The memory that a leaf maps: the virtual addresses from `start` to `last`, both included, on the
    physical ones from `physical` on. -/
structure Mapping where
  start : VAddr
  last : VAddr
  physical : PAddr
  flags : Flags
  deriving DecidableEq

/-- A table being worked through: its level, its next entry, and the virtual address at which the
    memory under it begins. -/
structure Cursor where
  table : Table
  level : Nat
  next : Nat
  base : VAddr

/-- A cursor at the first entry of a table. -/
def Cursor.atStart (table : Table) (level : Nat) (base : VAddr) : Cursor :=
  ⟨table, level, 0, base⟩

/-- A walk over the mappings of a page table. -/
inductive Walk where
  /-- Nothing has been read of the root at this address. -/
  | unread (root : PAddr)
  /-- These tables are open, the innermost first. -/
  | inside (cursors : List Cursor)

namespace Walk

/-- What is noted of an entry that was looked at: nothing, unless it is valid. -/
def note (table : Table) (level index : Nat) (entry : Entry) : Array Event :=
  if entry.flags.valid then #[.entryVisited table.address level index entry] else #[]

/-- Deals with the next entry of the innermost table, or closes that table after its last; none when
    no table is open. -/
def step (target : Target) : List Cursor → Option (Pull (List Cursor) Mapping)
  | [] => none
  | ⟨table, level, next, base⟩ :: outer =>
    if h : next < entriesPerTable then
      let entry := table.entries[next]
      let start := base.withPageNumber level next
      let noted := note table level next entry
      let here := ⟨table, level, next + 1, base⟩ :: outer
      match entry.kind, level with
      | .invalid, _ => some ⟨noted, none, here⟩
      | .leaf physical flags, level =>
        some ⟨noted, some (.ok ⟨start, start.plus (levelSpan level - 1), physical, flags⟩), here⟩
      | .table _, 0 => some ⟨noted, none, here⟩
      | .table address, below + 1 =>
        match Table.read target address with
        | .ok inner =>
          some ⟨noted.push (.tableRead address), none, .atStart inner below start :: here⟩
        | .error fault => some ⟨noted.push (.tableRead address), some (.error fault), []⟩
    else some ⟨#[], none, outer⟩

/-- How many steps one entry of a level can lead to: the one that deals with it, and those of the
    table that it may open, with the closing of that table. -/
def entryWeight : (level : Nat) → Nat
  | 0 => 1
  | level + 1 => entriesPerTable * entryWeight level + 2

/-- At most so many steps are left in the open tables. -/
def stepsLeft : List Cursor → Nat
  | [] => 0
  | cursor :: outer =>
    (entriesPerTable - cursor.next) * entryWeight cursor.level + 1 + stepsLeft outer

theorem entryWeight_pos (level : Nat) : 0 < entryWeight level := by
  cases level <;> simp [entryWeight]

theorem entryWeight_succ (level : Nat) :
    entryWeight (level + 1) = entriesPerTable * entryWeight level + 2 := rfl

/-- The entries of a table from one on weigh as much as that one and those after it. -/
theorem weight_entry {next : Nat} (h : next < entriesPerTable) (level : Nat) :
    (entriesPerTable - next) * entryWeight level =
      (entriesPerTable - (next + 1)) * entryWeight level + entryWeight level := by
  rw [← Nat.succ_mul]
  congr 1
  omega

/-- **Every step leaves fewer steps to take**, whatever the kernel's memory holds. -/
theorem stepsLeft_step {target : Target} {cursors : List Cursor} {pull : Pull (List Cursor) Mapping}
    (h : step target cursors = some pull) : stepsLeft pull.rest < stepsLeft cursors := by
  cases cursors with
  | nil => simp [step] at h
  | cons cursor outer =>
    obtain ⟨table, level, next, base⟩ := cursor
    rw [step] at h
    split at h
    next hnext =>
      have hentry := weight_entry hnext level
      have hpos := entryWeight_pos level
      dsimp only at h
      split at h
      · cases h
        simp only [stepsLeft]
        omega
      · cases h
        simp only [stepsLeft]
        omega
      · cases h
        simp only [stepsLeft]
        omega
      · split at h
        · cases h
          rename_i below _ _ _ _
          have hweight := entryWeight_succ below
          simp only [stepsLeft, Cursor.atStart, Nat.sub_zero, Nat.succ_eq_add_one] at hentry ⊢
          omega
        · cases h
          simp only [stepsLeft]
          omega
    next =>
      cases h
      simp only [stepsLeft]
      omega

/-- Takes steps up to the next item, or to the end. -/
def advance (target : Target) (events : Array Event) (cursors : List Cursor) : Pull Walk Mapping :=
  match _step : step target cursors with
  | none => ⟨events, none, .inside []⟩
  | some ⟨seen, none, rest⟩ => advance target (events ++ seen) rest
  | some ⟨seen, some item, rest⟩ => ⟨events ++ seen, some item, .inside rest⟩
termination_by stepsLeft cursors
decreasing_by exact stepsLeft_step _step

/-- One pull of a walk. -/
def pull (target : Target) : Walk → Pull Walk Mapping
  | .unread root =>
    match Table.read target root with
    | .ok table => advance target #[.tableRead root] [.atStart table (tableLevels - 1) ⟨0⟩]
    | .error fault => ⟨#[.tableRead root], some (.error fault), .inside []⟩
  | .inside cursors => advance target #[] cursors

/-- At most so many items are left in a walk. -/
def bound : Walk → Nat
  | .unread _ => entriesPerTable * entryWeight (tableLevels - 1) + 1
  | .inside cursors => stepsLeft cursors

theorem bound_advance (target : Target) (events : Array Event) (cursors : List Cursor) :
    bound (advance target events cursors).rest +
        (advance target events cursors).item.toList.length ≤
      stepsLeft cursors := by
  fun_induction advance target events cursors with
  | case1 => simp [bound, stepsLeft]
  | case2 events cursors seen rest hstep ih =>
    have := stepsLeft_step hstep
    dsimp only at this
    omega
  | case3 events cursors seen item rest hstep =>
    have := stepsLeft_step hstep
    exact this

theorem bound_advance_end (target : Target) (events : Array Event) (cursors : List Cursor)
    (h : (advance target events cursors).item = none) :
    bound (advance target events cursors).rest = 0 := by
  fun_induction advance target events cursors with
  | case1 => rfl
  | case2 events cursors seen rest hstep ih => exact ih h
  | case3 => simp at h

end Walk

instance : Traversal Walk Mapping where
  pull := Walk.pull
  bound := Walk.bound
  bound_pull target walk := by
    cases walk with
    | unread root =>
      rw [Walk.pull]
      split
      next table _ =>
        have h := Walk.bound_advance target #[.tableRead root]
          [.atStart table (tableLevels - 1) ⟨0⟩]
        simpa only [Walk.bound, Walk.stepsLeft, Cursor.atStart, Nat.sub_zero, Nat.add_zero] using h
      next => exact Nat.le_add_left _ _
    | inside cursors => exact Walk.bound_advance target _ _
  bound_end target walk h := by
    cases walk with
    | unread root =>
      rw [Walk.pull] at h ⊢
      split at h
      · exact Walk.bound_advance_end target _ _ h
      · simp at h
    | inside cursors => exact Walk.bound_advance_end target _ _ h

end KernelProbe
