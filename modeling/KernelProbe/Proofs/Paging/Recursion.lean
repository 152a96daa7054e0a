import Mathlib.Data.List.FinRange
import KernelProbe.Proofs.Paging.Tree

/-!
# The recursive walk

A page table is walked most simply by recursion: a table is read, and its entries are dealt with in
order, those that point to another table by walking that one. A table that cannot be read stops the
whole. What the recursion finds is the tree that the walk works through, up to its first fault.

* `Walk.visit`, `Walk.found` -- the recursion, and what it finds;
* `Walk.emit` -- items dealt with in order;
* `Walk.found_eq` -- what is found is the tree, up to the first fault.
-/

namespace KernelProbe.Walk

/-! ## 1. The recursion -/

/-- What a recursive walk works in: it notes the mappings that it finds, and a fault stops it. -/
abbrev Visiting := ExceptT Fault (StateM (List Mapping))

/-- What the recursion does with one entry: a leaf is noted, and `below` tells what is done with the
    table that a pointer leads to. -/
def visitEntry (below : PAddr → VAddr → Visiting Unit) (level : Nat) (start : VAddr) :
    Entry.Kind → Visiting Unit
  | .invalid => pure ()
  | .leaf physical flags =>
    modify (· ++ [⟨start, start.plus (levelSpan level - 1), physical, flags⟩])
  | .table inner => below inner start

/-- **One table of the recursion**: it is read, then its entries are dealt with in order. -/
def visitTable (target : Target) (below : PAddr → VAddr → Visiting Unit) (level : Nat)
    (address : PAddr) (base : VAddr) : Visiting Unit := do
  let table ← Table.read target address
  (List.finRange entriesPerTable).forM fun index =>
    visitEntry below level (base.withPageNumber level index.val) (table.entries.get index).kind

/-- **The walk by recursion** from the table at an address. At the lowest level a pointer leads
    nowhere. -/
def visit (target : Target) : (level : Nat) → PAddr → VAddr → Visiting Unit
  | 0 => visitTable target (fun _ _ => pure ()) 0
  | below + 1 => visitTable target (visit target below) (below + 1)

/-- What has been found: the mappings noted, and the fault if one stopped the walk. -/
def items : Except Fault Unit × List Mapping → List (Except Fault Mapping)
  | (.ok (), mappings) => mappings.map .ok
  | (.error fault, mappings) => mappings.map .ok ++ [.error fault]

/-- What the recursion from a root finds. -/
def found (target : Target) (root : PAddr) : List (Except Fault Mapping) :=
  items ((visit target (tableLevels - 1) root ⟨0⟩).run.run [])

/-! ## 2. The recursion finds the tree -/

/-- Deals with items in order: a mapping is noted, a fault stops the rest. -/
def emit : List (Except Fault Mapping) → Visiting Unit
  | [] => pure ()
  | .ok mapping :: rest => do
    modify (· ++ [mapping])
    emit rest
  | .error fault :: _ => throw fault

theorem emit_append (first rest : List (Except Fault Mapping)) :
    emit (first ++ rest) = (do emit first; emit rest) := by
  induction first with
  | nil => simp only [emit, List.nil_append, pure_bind]
  | cons item first ih =>
    cases item with
    | ok mapping => simp only [emit, List.cons_append, ih, bind_assoc]
    | error fault => rfl

theorem emit_flatMap {α : Type} (indices : List α) (given : α → List (Except Fault Mapping)) :
    emit (indices.flatMap given) = indices.forM fun index => emit (given index) := by
  induction indices with
  | nil => rfl
  | cons index indices ih =>
    rw [List.flatMap_cons, emit_append, ih]
    rfl

theorem items_emit (given : List (Except Fault Mapping)) (mappings : List Mapping) :
    items ((emit given).run.run mappings) = mappings.map .ok ++ upToFault given := by
  induction given generalizing mappings with
  | nil => exact (List.append_nil _).symm
  | cons item rest ih =>
    cases item with
    | error fault => rfl
    | ok mapping =>
      show items ((emit rest).run.run (mappings ++ [mapping])) = _
      rw [ih, List.map_append, List.append_assoc]
      rfl

/-- What lies under a table is what lies under its entries in order. -/
theorem rows_eq_flatMap (below : PAddr → VAddr → List (Except Fault Mapping)) (cursor : Cursor) :
    rows below cursor = ((List.finRange entriesPerTable).drop cursor.next).flatMap fun index =>
      row below { cursor with next := index.val } (cursor.table.entries.get index).kind := by
  fun_induction rows below cursor with
  | case1 cursor hnext ih =>
    have hdrop : (List.finRange entriesPerTable).drop cursor.next =
        ⟨cursor.next, hnext⟩ :: (List.finRange entriesPerTable).drop cursor.passed.next := by
      rw [List.drop_eq_getElem_cons (by rwa [List.length_finRange]), List.getElem_finRange]
      rfl
    rw [hdrop, List.flatMap_cons, ih]
    rfl
  | case2 cursor hend =>
    rw [List.drop_eq_nil_of_le (by rw [List.length_finRange]; omega), List.flatMap_nil]

theorem visitTable_eq {target : Target} {below : PAddr → VAddr → Visiting Unit} {level : Nat}
    (hbelow : ∀ address base, below address base = emit (tree target level address base))
    (address : PAddr) (base : VAddr) :
    visitTable target below level address base = emit (tree target (level + 1) address base) := by
  have hentry : ∀ (cursor : Cursor) (kind : Entry.Kind), cursor.level = level →
      visitEntry below level cursor.start kind = emit (row (tree target level) cursor kind) := by
    rintro cursor kind rfl
    cases kind with
    | invalid => rfl
    | leaf physical flags => rfl
    | table inner => exact hbelow inner cursor.start
  rw [visitTable]
  cases hread : Table.read target address with
  | error fault =>
    rw [tree_fault hread]
    rfl
  | ok table =>
    rw [tree_read hread, rows_eq_flatMap, emit_flatMap]
    refine (pure_bind table _).trans ?_
    rw [show (Cursor.atStart table level base).next = 0 from rfl, List.drop_zero]
    congr 1
    funext index
    exact hentry ⟨table, level, index.val, base⟩ _ rfl

/-- **The recursion finds the tree**, up to the first fault. -/
theorem visit_eq (target : Target) (level : Nat) (address : PAddr) (base : VAddr) :
    visit target level address base = emit (tree target (level + 1) address base) := by
  induction level generalizing address base with
  | zero => exact visitTable_eq (fun _ _ => rfl) address base
  | succ below ih => exact visitTable_eq ih address base

theorem found_eq (target : Target) (root : PAddr) :
    found target root = upToFault (tree target tableLevels root ⟨0⟩) := by
  rw [found, visit_eq, items_emit]
  rfl

end KernelProbe.Walk
