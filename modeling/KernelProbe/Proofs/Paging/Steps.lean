import KernelProbe.Proofs.Paging.Placement

/-!
# The steps of a walk

A step of a walk does one of five things with the innermost open table: it closes it, passes over an
entry, gives the mapping of a leaf, opens the table that an entry points to, or fails to read that
table. `Walk.Step` says this once, with all that each case knows; what is proved of walks is proved
by these five cases.

* `Walk.Step`, `Walk.step_cases` -- what a step does;
* `Walk.Runs`, `Walk.runs_advance` -- the steps of one pull, and their number;
* `Walk.Opened` -- the open tables that steps can lead to, each under a kernel of its own.
-/

namespace KernelProbe

namespace Walk

/-! ## 1. One step -/

/-- **What one step does**: the open tables before it, the item that it gives, and the open tables
    after it. -/
inductive Step (target : Target) :
    List Cursor → Option (Except Fault Mapping) → List Cursor → Prop where
  | closes (cursor : Cursor) (outer : List Cursor) (hend : entriesPerTable ≤ cursor.next) :
      Step target (cursor :: outer) none outer
  | passes (cursor : Cursor) (outer : List Cursor) (hnext : cursor.next < entriesPerTable)
      (hkind : cursor.kind hnext = .invalid ∨
        cursor.level = 0 ∧ ∃ address, cursor.kind hnext = .table address) :
      Step target (cursor :: outer) none (cursor.passed :: outer)
  | maps (cursor : Cursor) (outer : List Cursor) (hnext : cursor.next < entriesPerTable)
      (physical : PAddr) (flags : Flags) (hkind : cursor.kind hnext = .leaf physical flags) :
      Step target (cursor :: outer) (some (.ok (cursor.mapping physical flags)))
        (cursor.passed :: outer)
  | opens (cursor : Cursor) (outer : List Cursor) (hnext : cursor.next < entriesPerTable)
      (address : PAddr) (inner : Table) (below : Nat) (hlevel : cursor.level = below + 1)
      (hkind : cursor.kind hnext = .table address) (hread : Table.read target address = .ok inner) :
      Step target (cursor :: outer) none
        (.atStart inner below cursor.start :: cursor.passed :: outer)
  | fails (cursor : Cursor) (outer : List Cursor) (hnext : cursor.next < entriesPerTable)
      (address : PAddr) (fault : Fault) (below : Nat) (hlevel : cursor.level = below + 1)
      (hkind : cursor.kind hnext = .table address)
      (hread : Table.read target address = .error fault) :
      Step target (cursor :: outer) (some (.error fault)) []

theorem step_eq_none {target : Target} {cursors : List Cursor} (h : step target cursors = none) :
    cursors = [] := by
  cases cursors with
  | nil => rfl
  | cons cursor outer =>
    obtain ⟨table, level, next, base⟩ := cursor
    rw [step] at h
    split at h
    · dsimp only at h
      split at h
      · cases h
      · cases h
      · cases h
      · split at h <;> cases h
    · cases h

theorem step_cases {target : Target} {cursors : List Cursor} {pull : Pull (List Cursor) Mapping}
    (h : step target cursors = some pull) : Step target cursors pull.item pull.rest := by
  cases cursors with
  | nil => cases h
  | cons cursor outer =>
    obtain ⟨table, level, next, base⟩ := cursor
    rw [step] at h
    split at h
    next hnext =>
      dsimp only at h
      split at h
      next hkind =>
        cases h
        exact .passes _ outer hnext (.inl hkind)
      next physical flags hkind =>
        cases h
        exact .maps _ outer hnext physical flags hkind
      next address hkind =>
        cases h
        exact .passes _ outer hnext (.inr ⟨rfl, address, hkind⟩)
      next address below hkind =>
        split at h
        next inner hread =>
          cases h
          exact .opens _ outer hnext address inner below rfl hkind hread
        next fault hread =>
          cases h
          exact .fails _ outer hnext address fault below rfl hkind hread
    next hend =>
      cases h
      exact .closes _ outer (Nat.le_of_not_lt hend)

/-! ## 2. The steps of one pull -/

/-- **The steps of one pull**, counted: the reading of the root if that is still to be done, then
    steps without an item, up to the first that gives one or to the end of the walk. -/
inductive Runs (target : Target) :
    Nat → Walk → Option (Except Fault Mapping) → List Cursor → Prop where
  | unreadable {root : PAddr} {fault : Fault} (hread : Table.read target root = .error fault) :
      Runs target 1 (.unread root) (some (.error fault)) []
  | starts {root : PAddr} {table : Table} {count : Nat} {rest : List Cursor}
      {item : Option (Except Fault Mapping)} (hread : Table.read target root = .ok table)
      (hrest : Runs target count (.inside [.atStart table (tableLevels - 1) ⟨0⟩]) item rest) :
      Runs target (count + 1) (.unread root) item rest
  | ends : Runs target 0 (.inside []) none []
  | gives {cursors rest : List Cursor} {item : Except Fault Mapping}
      (hstep : Step target cursors (some item) rest) :
      Runs target 1 (.inside cursors) (some item) rest
  | quiet {cursors between rest : List Cursor} {count : Nat} {item : Option (Except Fault Mapping)}
      (hstep : Step target cursors none between)
      (hrest : Runs target count (.inside between) item rest) :
      Runs target (count + 1) (.inside cursors) item rest

theorem runs_advance (target : Target) (events : Array Event) (cursors : List Cursor) :
    ∃ count rest, count ≤ stepsLeft cursors ∧
      Runs target count (.inside cursors) (advance target events cursors).item rest ∧
      (advance target events cursors).rest = .inside rest := by
  fun_induction advance target events cursors with
  | case1 events cursors hstep =>
    rw [step_eq_none hstep]
    exact ⟨0, [], Nat.zero_le _, .ends, rfl⟩
  | case2 events cursors seen between hstep ih =>
    obtain ⟨count, rest, hcount, hruns, hrest⟩ := ih
    have hlt := stepsLeft_step hstep
    dsimp only at hlt
    exact ⟨count + 1, rest, by omega, .quiet (step_cases hstep) hruns, hrest⟩
  | case3 events cursors seen item rest hstep =>
    have hlt := stepsLeft_step hstep
    exact ⟨1, rest, by omega, .gives (step_cases hstep), rfl⟩

/-- A step that gives an item is the last one of its pull. -/
theorem advance_of_item {target : Target} {events seen : Array Event} {cursors rest : List Cursor}
    {item : Except Fault Mapping} (h : step target cursors = some ⟨seen, some item, rest⟩) :
    advance target events cursors = ⟨events ++ seen, some item, .inside rest⟩ := by
  rw [advance]
  split
  next hstep => cases h.symm.trans hstep
  next hstep => cases h.symm.trans hstep
  next hstep =>
    cases h.symm.trans hstep
    rfl

/-- The steps left in the root table alone. -/
theorem stepsLeft_root (root : PAddr) (table : Table) :
    stepsLeft [.atStart table (tableLevels - 1) ⟨0⟩] = bound (.unread root) := by
  simp only [stepsLeft, bound, Cursor.atStart, Nat.sub_zero, Nat.add_zero]

/-- **A pull comes to an end**: it takes no more steps than were left, and one to read the root. -/
theorem runs_pull (target : Target) (walk : Walk) :
    ∃ count rest, count ≤ bound walk + 1 ∧ Runs target count walk (pull target walk).item rest ∧
      (pull target walk).rest = .inside rest := by
  cases walk with
  | unread root =>
    rw [pull]
    split
    next table hread =>
      obtain ⟨count, rest, hcount, hruns, hrest⟩ :=
        runs_advance target #[.tableRead root] [.atStart table (tableLevels - 1) ⟨0⟩]
      rw [stepsLeft_root root] at hcount
      exact ⟨count + 1, rest, by omega, .starts hread hruns, hrest⟩
    next fault hread => exact ⟨1, [], Nat.le_add_left _ _, .unreadable hread, rfl⟩
  | inside cursors =>
    obtain ⟨count, rest, hcount, hruns, hrest⟩ := runs_advance target #[] cursors
    exact ⟨count, rest, Nat.le_succ_of_le hcount, hruns, hrest⟩

/-! ## 3. Open tables that can be reached -/

/-- **The open tables that a walk can come to**, with a kernel of its own under each step. -/
inductive Opened (root : PAddr) : List Cursor → Prop where
  | closed : Opened root []
  | root {target : Target} {table : Table} (hread : Table.read target root = .ok table) :
      Opened root [.atStart table (tableLevels - 1) ⟨0⟩]
  | step {target : Target} {cursors rest : List Cursor} {item : Option (Except Fault Mapping)}
      (h : Opened root cursors) (hstep : Step target cursors item rest) : Opened root rest

/-- A walk under a root that has only such tables open. -/
def Within (root : PAddr) : Walk → Prop
  | .unread root' => root' = root
  | .inside cursors => Opened root cursors

theorem Runs.opened {target : Target} {root : PAddr} {count : Nat} {walk : Walk}
    {item : Option (Except Fault Mapping)} {rest : List Cursor}
    (hruns : Runs target count walk item rest) (h : Within root walk) : Opened root rest := by
  induction hruns with
  | unreadable => exact .closed
  | starts hread _ ih =>
    obtain rfl := h
    exact ih (.root hread)
  | ends => exact .closed
  | gives hstep => exact .step h hstep
  | quiet hstep _ ih => exact ih (.step h hstep)

/-- **Between pulls a walk has only such tables open**, whatever the kernel was at each pull. -/
theorem within_after {root : PAddr} (walk : Walk) (h : Within root walk) (targets : List Target) :
    Within root (Traversal.after targets walk) := by
  induction targets generalizing walk with
  | nil => exact h
  | cons target later ih =>
    obtain ⟨count, rest, _, hruns, hrest⟩ := runs_pull target walk
    refine ih (pull target walk).rest ?_
    rw [hrest]
    exact hruns.opened h

end Walk

end KernelProbe
