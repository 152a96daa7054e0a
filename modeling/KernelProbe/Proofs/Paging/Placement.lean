import KernelProbe.Paging.Walk
import KernelProbe.Proofs.Address.PageNumbers

/-!
# Where the memory under an entry lies

A table that lies where it should covers an aligned stretch of addresses below bit 39, and its
entries share that stretch out among themselves, one behind the other. This is said for one table at
a time, so that it serves the walk, which keeps a stack of tables, as well as the tree of tables
that it walks.

* `Cursor.start`, `Cursor.mapping`, `Cursor.kind` -- the next entry of a table;
* `Placed` -- a table whose memory is aligned and below bit 39;
* `Placed.mapping`, `Placed.inner` -- the memory of a leaf, and of the next table.
-/

namespace KernelProbe

theorem two_pow_levelShift_succ (level : Nat) :
    2 ^ levelShift (level + 1) = 512 * 2 ^ levelShift level := by
  rw [levelShift_eq, levelShift_eq, show 12 + 9 * (level + 1) = 9 + (12 + 9 * level) by omega,
    Nat.pow_add]

namespace Cursor

/-! ## 1. The next entry -/

/-- The virtual address at which the memory under the next entry begins. -/
def start (cursor : Cursor) : VAddr :=
  cursor.base.withPageNumber cursor.level cursor.next

/-- The mapping of the next entry, if that is a leaf. -/
def mapping (cursor : Cursor) (physical : PAddr) (flags : Flags) : Mapping :=
  ⟨cursor.start, cursor.start.plus (levelSpan cursor.level - 1), physical, flags⟩

/-- The cursor behind its next entry. -/
def passed (cursor : Cursor) : Cursor :=
  { cursor with next := cursor.next + 1 }

/-- What the next entry says. -/
def kind (cursor : Cursor) (h : cursor.next < entriesPerTable) : Entry.Kind :=
  cursor.table.entries[cursor.next].kind

/-- The address that a cursor stands at: the end of the memory under the entries dealt with. -/
def low (cursor : Cursor) : Nat :=
  cursor.base.bits.toNat + cursor.next * 2 ^ levelShift cursor.level

/-- The end of the memory under the whole table. -/
def limit (cursor : Cursor) : Nat :=
  cursor.base.bits.toNat + 2 ^ levelShift (cursor.level + 1)

@[simp] theorem low_atStart (table : Table) (level : Nat) (base : VAddr) :
    (atStart table level base).low = base.bits.toNat := by
  simp only [low, atStart, Nat.zero_mul, Nat.add_zero]

theorem low_passed (cursor : Cursor) :
    cursor.passed.low = cursor.low + 2 ^ levelShift cursor.level := by
  simp only [low, passed, Nat.succ_mul]
  omega

theorem low_le_limit {cursor : Cursor} (h : cursor.next ≤ entriesPerTable) :
    cursor.low ≤ cursor.limit := by
  have hle : cursor.next * 2 ^ levelShift cursor.level ≤ 512 * 2 ^ levelShift cursor.level :=
    Nat.mul_le_mul_right _ h
  rw [low, limit, two_pow_levelShift_succ]
  omega

/-- The memory under the next entry is a part of the table's. -/
theorem low_next_le {cursor : Cursor} (h : cursor.next < entriesPerTable) :
    cursor.low + 2 ^ levelShift cursor.level ≤ cursor.limit := by
  rw [← low_passed]
  exact low_le_limit h

theorem limit_le_low {cursor : Cursor} (h : entriesPerTable ≤ cursor.next) :
    cursor.limit ≤ cursor.low := by
  have hle : 512 * 2 ^ levelShift cursor.level ≤ cursor.next * 2 ^ levelShift cursor.level :=
    Nat.mul_le_mul_right _ h
  rw [low, limit, two_pow_levelShift_succ]
  omega

end Cursor

/-! ## 2. Tables in their place -/

/-- **A table in its place**: the memory under a table of so many levels, from `base` on, begins at
    a multiple of its size and lies below bit 39. -/
structure Placed (levels : Nat) (base : VAddr) : Prop where
  levels_le : levels ≤ tableLevels
  aligned : base.bits.toNat % 2 ^ levelShift levels = 0
  limit_le : base.bits.toNat + 2 ^ levelShift levels ≤ 2 ^ 39

namespace Placed

theorem root : Placed tableLevels ⟨0⟩ :=
  ⟨Nat.le_refl _, Nat.zero_mod _, Nat.le_of_eq (Nat.zero_add _)⟩

variable {cursor : Cursor} (h : Placed (cursor.level + 1) cursor.base)

include h

/-- The memory under the next entry begins where the cursor stands. -/
theorem toNat_start (hnext : cursor.next < entriesPerTable) :
    cursor.start.bits.toNat = cursor.low :=
  VAddr.toNat_withPageNumber (Nat.le_of_succ_le_succ h.levels_le) h.aligned hnext

theorem low_aligned : cursor.low % 2 ^ levelShift cursor.level = 0 := by
  have haligned : cursor.base.bits.toNat % 2 ^ levelShift cursor.level = 0 :=
    Nat.mod_eq_zero_of_dvd (Nat.dvd_trans ⟨512, by rw [two_pow_levelShift_succ, Nat.mul_comm]⟩
      (Nat.dvd_of_mod_eq_zero h.aligned))
  rw [Cursor.low, Nat.add_mul_mod_self_right, haligned]

/-- **The memory under the next entry** is the place of a table with one level less. -/
theorem inner (hnext : cursor.next < entriesPerTable) : Placed cursor.level cursor.start := by
  have hlow := Cursor.low_next_le hnext
  have hlimit : cursor.limit ≤ 2 ^ 39 := h.limit_le
  refine ⟨Nat.le_of_succ_le h.levels_le, ?_, ?_⟩
  · rw [h.toNat_start hnext]
    exact h.low_aligned
  · rw [h.toNat_start hnext]
    omega

/-- **The memory of a leaf** begins where the cursor stands and fills the entry's span. -/
theorem mapping (hnext : cursor.next < entriesPerTable) (physical : PAddr) (flags : Flags) :
    (cursor.mapping physical flags).start.bits.toNat = cursor.low ∧
      (cursor.mapping physical flags).last.bits.toNat + 1 =
        cursor.low + 2 ^ levelShift cursor.level := by
  have hstart := h.toNat_start hnext
  have hlimit := (h.inner hnext).limit_le
  have hlevels : cursor.level + 1 ≤ 3 := h.levels_le
  have hpos : 0 < 2 ^ levelShift cursor.level := Nat.two_pow_pos _
  have hlast : (cursor.mapping physical flags).last.bits.toNat =
      cursor.start.bits.toNat + 2 ^ levelShift cursor.level - 1 :=
    VAddr.toNat_plus_levelSpan (by omega) (by omega)
  exact ⟨hstart, by omega⟩

end Placed

end KernelProbe
