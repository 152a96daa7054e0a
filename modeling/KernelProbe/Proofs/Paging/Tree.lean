import KernelProbe.Proofs.Paging.Steps
import KernelProbe.Proofs.Paging.Translation
import KernelProbe.Proofs.Traversal.Pulls

/-!
# The tree that a walk works through

Under a kernel that does not change, a page table is a tree: what lies under a table is what lies
under its entries, one after the other. `Walk.tree` writes this down by recursion on the levels,
without a stack. The walk is the same list given piece by piece: its open tables stand for the part
of the tree that is still to come (`Walk.pending`), and every step takes away from the front of it.

* `Walk.rows`, `Walk.tree` -- what lies under a table;
* `Walk.stream_eq` -- the walk gives the tree, up to the first fault;
* `Walk.readable_tree` -- with every table readable there is no fault in it.
-/

namespace KernelProbe

/-- The items up to the first fault, with that fault. -/
def upToFault {α : Type} : List (Except Fault α) → List (Except Fault α)
  | [] => []
  | .error fault :: _ => [.error fault]
  | .ok a :: rest => .ok a :: upToFault rest

@[simp] theorem upToFault_map_ok {α : Type} (elements : List α) :
    upToFault (elements.map .ok) = (elements.map .ok : List (Except Fault α)) := by
  induction elements with
  | nil => rfl
  | cons a rest ih => rw [List.map_cons, upToFault, ih]

namespace Walk

/-! ## 1. The tree -/

/-- What lies under the next entry of a table, by what that entry says; `below` tells what lies
    under the tables one level down. -/
def row (below : PAddr → VAddr → List (Except Fault Mapping)) (cursor : Cursor) :
    Entry.Kind → List (Except Fault Mapping)
  | .invalid => []
  | .leaf physical flags => [.ok (cursor.mapping physical flags)]
  | .table address => below address cursor.start

/-- What lies under the entries of a table from the next one on. -/
def rows (below : PAddr → VAddr → List (Except Fault Mapping)) (cursor : Cursor) :
    List (Except Fault Mapping) :=
  if h : cursor.next < entriesPerTable then
    row below cursor (cursor.kind h) ++ rows below cursor.passed
  else []
termination_by entriesPerTable - cursor.next
decreasing_by
  simp only [Cursor.passed]
  omega

/-- **What lies under the table at an address**, with so many levels to go. -/
def tree (target : Target) : (levels : Nat) → PAddr → VAddr → List (Except Fault Mapping)
  | 0, _, _ => []
  | level + 1, address, base =>
    match Table.read target address with
    | .ok table => rows (tree target level) (.atStart table level base)
    | .error fault => [.error fault]

theorem tree_read {target : Target} {address : PAddr} {table : Table}
    (h : Table.read target address = .ok table) (level : Nat) (base : VAddr) :
    tree target (level + 1) address base =
      rows (tree target level) (.atStart table level base) := by
  rw [tree, h]

theorem tree_fault {target : Target} {address : PAddr} {fault : Fault}
    (h : Table.read target address = .error fault) (level : Nat) (base : VAddr) :
    tree target (level + 1) address base = [.error fault] := by
  rw [tree, h]

theorem rows_next {below : PAddr → VAddr → List (Except Fault Mapping)} {cursor : Cursor}
    {h : cursor.next < entriesPerTable} {kind : Entry.Kind} (hkind : cursor.kind h = kind) :
    rows below cursor = row below cursor kind ++ rows below cursor.passed := by
  rw [rows, dif_pos h, hkind]

theorem rows_end {below : PAddr → VAddr → List (Except Fault Mapping)} {cursor : Cursor}
    (h : entriesPerTable ≤ cursor.next) : rows below cursor = [] := by
  rw [rows, dif_neg (Nat.not_lt.mpr h)]

/-! ## 2. The walk gives the tree -/

/-- What the open tables still have to give. -/
def pending (target : Target) : List Cursor → List (Except Fault Mapping)
  | [] => []
  | cursor :: outer => rows (tree target cursor.level) cursor ++ pending target outer

/-- What a walk still has to give. -/
def remaining (target : Target) : Walk → List (Except Fault Mapping)
  | .unread root => tree target tableLevels root ⟨0⟩
  | .inside cursors => pending target cursors

/-- How an item stands at the front of what there was to give, with `after` to give behind it. -/
def AtFront (before after : List (Except Fault Mapping)) : Option (Except Fault Mapping) → Prop
  | none => before = []
  | some (.ok mapping) => before = .ok mapping :: after
  | some (.error fault) => after = [] ∧ ∃ lost, before = .error fault :: lost

/-- A step without an item leaves what there is to give as it was. -/
theorem step_quiet {target : Target} {cursors rest : List Cursor}
    (hstep : Step target cursors none rest) : pending target cursors = pending target rest := by
  cases hstep with
  | closes cursor outer hend => rw [pending, rows_end hend, List.nil_append]
  | passes cursor outer hnext hkind =>
    rw [pending, pending]
    rcases hkind with hkind | ⟨hlevel, address, hkind⟩
    · rw [rows_next hkind]
      rfl
    · rw [rows_next hkind, show cursor.passed.level = cursor.level from rfl, hlevel]
      rfl
  | opens cursor outer hnext address inner below hlevel hkind hread =>
    rw [pending, pending, pending, rows_next hkind, row, List.append_assoc,
      show cursor.passed.level = cursor.level from rfl, hlevel, tree_read hread]
    rfl

/-- A step with an item takes it from the front. -/
theorem step_front {target : Target} {cursors rest : List Cursor} {item : Except Fault Mapping}
    (hstep : Step target cursors (some item) rest) :
    AtFront (pending target cursors) (pending target rest) (some item) := by
  cases hstep with
  | maps cursor outer hnext physical flags hkind =>
    show pending target (cursor :: outer) = _
    rw [pending, rows_next hkind]
    rfl
  | fails cursor outer hnext address fault below hlevel hkind hread =>
    refine ⟨rfl, rows (tree target cursor.level) cursor.passed ++ pending target outer, ?_⟩
    rw [pending, rows_next hkind, row, List.append_assoc, hlevel, tree_fault hread]
    rfl

/-- **A pull takes its item from the front of what there is to give.** -/
theorem runs_front {target : Target} {count : Nat} {walk : Walk}
    {item : Option (Except Fault Mapping)} {rest : List Cursor}
    (hruns : Runs target count walk item rest) :
    AtFront (remaining target walk) (pending target rest) item := by
  induction hruns with
  | unreadable hread => exact ⟨rfl, [], tree_fault hread 2 ⟨0⟩⟩
  | starts hread _ ih =>
    rw [remaining, pending, pending, List.append_nil] at ih
    rw [remaining, tree_read hread]
    exact ih
  | ends => rfl
  | gives hstep => exact step_front hstep
  | quiet hstep _ ih =>
    rw [remaining, step_quiet hstep]
    exact ih

/-- **The stream of a walk is the tree**, up to the first fault. -/
theorem stream_eq (target : Target) (walk : Walk) :
    Traversal.stream target walk = upToFault (remaining target walk) := by
  obtain ⟨count, rest, _, hruns, hrest⟩ := runs_pull target walk
  have hfront := runs_front hruns
  match hitem : (pull target walk).item with
  | none =>
    rw [hitem] at hfront
    rw [Traversal.stream_of_none hitem, show remaining target walk = [] from hfront]
    rfl
  | some (.error fault) =>
    rw [hitem] at hfront
    obtain ⟨hnil, lost, hbefore⟩ := hfront
    rw [Traversal.stream_of_some hitem, hbefore,
      show (Traversal.pull target walk).rest = Walk.inside rest from hrest, stream_eq, remaining,
      hnil]
    rfl
  | some (.ok mapping) =>
    rw [hitem] at hfront
    rw [Traversal.stream_of_some hitem, show remaining target walk = _ :: _ from hfront,
      show (Traversal.pull target walk).rest = Walk.inside rest from hrest, stream_eq]
    rfl
termination_by Traversal.bound walk
decreasing_by
  all_goals
    rw [← hrest]
    exact Traversal.bound_lt target walk hitem

/-! ## 3. Readable tables -/

/-- With every table readable that pointers lead to, nothing below such a table is a fault. -/
theorem readable_tree {target : Target} {root : PAddr} (hreadable : Readable target root)
    {levels : Nat} {address : PAddr} (base : VAddr)
    (h : ∀ level, levels = level + 1 → Reached target root level address) :
    ∃ mappings : List Mapping, tree target levels address base = mappings.map .ok := by
  induction levels generalizing address base with
  | zero => exact ⟨[], rfl⟩
  | succ level ih =>
    have hreached := h level rfl
    obtain ⟨table, hread⟩ := hreadable level address hreached
    have hrow : ∀ cursor : Cursor, cursor.table = table → ∀ hnext,
        ∃ mappings : List Mapping,
          row (tree target level) cursor (cursor.kind hnext) = mappings.map .ok := by
      rintro cursor rfl hnext
      match hkind : cursor.kind hnext with
      | .invalid => exact ⟨[], rfl⟩
      | .leaf physical flags => exact ⟨[cursor.mapping physical flags], rfl⟩
      | .table inner =>
        refine ih cursor.start fun below hlevel => ?_
        subst hlevel
        exact .pointer hreached hread ⟨cursor.next, hnext⟩ hkind
    have hrows : ∀ cursor : Cursor, cursor.table = table →
        ∃ mappings : List Mapping, rows (tree target level) cursor = mappings.map .ok := by
      intro cursor
      fun_induction rows (tree target level) cursor with
      | case1 cursor hnext ih =>
        intro htable
        obtain ⟨first, hfirst⟩ := hrow cursor htable hnext
        obtain ⟨others, hothers⟩ := ih htable
        exact ⟨first ++ others, by rw [hfirst, hothers, List.map_append]⟩
      | case2 => exact fun _ => ⟨[], rfl⟩
    rw [tree_read hread]
    exact hrows _ rfl

/-- **With every table readable the walk gives the tree**, and no fault. -/
theorem stream_readable {target : Target} {root : PAddr} (hreadable : Readable target root) :
    ∃ mappings : List Mapping, tree target tableLevels root ⟨0⟩ = mappings.map .ok ∧
      Traversal.stream target (Walk.unread root) = mappings.map .ok := by
  obtain ⟨mappings, htree⟩ :
      ∃ mappings : List Mapping, tree target tableLevels root ⟨0⟩ = mappings.map .ok := by
    refine readable_tree hreadable ⟨0⟩ fun level hlevel => ?_
    obtain rfl : 2 = level := Nat.succ.inj hlevel
    exact .root
  refine ⟨mappings, htree, ?_⟩
  rw [stream_eq, remaining, htree, upToFault_map_ok]

end Walk

end KernelProbe
