import KernelProbe.Proofs.Paging.Tree

/-!
# The walk and the look-up agree

A walk finds every leaf of the page tables in one pass, a look-up follows one address. Under tables
that can all be read they say the same: the address is looked up to a leaf exactly when one mapping
of the walk covers it, and that mapping is the leaf's; where the look-up fails nothing covers it.

The tables may be shared and may point at themselves or each other: the agreement is proved on the
tree of tables, by the levels, with one entry of each table to follow.

* `Leaf.mapping` -- the mapping that a leaf is found as;
* `Walk.filter_tree` -- of all that lies under a table, only the leaf that the look-up ends in
  covers the address;
* `Walk.covers_translation` -- the agreement, for a whole walk.
-/

namespace KernelProbe

/-! ## 1. Covered addresses -/

/-- Whether an address is among those of a mapping. -/
def Mapping.covers (va : Nat) (mapping : Mapping) : Bool :=
  mapping.start.bits.toNat ≤ va ∧ va ≤ mapping.last.bits.toNat

/-- The same of an item; a fault covers nothing. -/
def itemCovers (va : Nat) : Except Fault Mapping → Bool
  | .ok mapping => mapping.covers va
  | .error _ => false

/-- **The mapping that a leaf is found as** by the look-up of `va`. -/
structure Leaf.Maps (leaf : Leaf) (va : Nat) (mapping : Mapping) : Prop where
  start : mapping.start.bits.toNat = va - va % leaf.span
  last : mapping.last.bits.toNat = mapping.start.bits.toNat + leaf.span - 1
  physical : mapping.physical.bits.toNat = leaf.physical
  flags : mapping.flags.bits.toNat = leaf.flags

/-- Where the look-up of `va` goes on at an entry of a level. -/
def lookupUnder (target : Target) (va level : Nat) : Entry.Kind → Option Leaf
  | .invalid => none
  | .table inner => lookup target va level inner
  | .leaf physical flags => some ⟨level, physical.bits.toNat, flags.bits.toNat⟩

theorem lookup_read {target : Target} {address : PAddr} {table : Table}
    (h : Table.read target address = .ok table) (va level : Nat) :
    lookup target va (level + 1) address =
      lookupUnder target va level (table.entries.get (pageIndex level va)).kind := by
  rw [lookup, h, Entry.kind_eq]
  dsimp only [Table.word]
  by_cases hvalid : (table.entries.get (pageIndex level va)).bits.toNat % 2 = 0
  · rw [if_pos hvalid, if_pos hvalid]
    rfl
  · rw [if_neg hvalid, if_neg hvalid]
    by_cases haccess : (table.entries.get (pageIndex level va)).bits.toNat / 2 % 8 = 0
    · rw [if_pos haccess, if_pos haccess]
      rfl
    · rw [if_neg haccess, if_neg haccess, lookupUnder, Entry.toNat_address, Entry.toNat_flags]

/-- The entry that an address falls under is the one whose page number it has. -/
theorem pageIndex_eq {cursor : Cursor} (h : Placed (cursor.level + 1) cursor.base) {va : Nat}
    (hnext : cursor.next < entriesPerTable) (hlow : cursor.low ≤ va)
    (hhigh : va < cursor.low + 2 ^ levelShift cursor.level) :
    pageIndex cursor.level va = ⟨cursor.next, hnext⟩ := by
  obtain ⟨q, hq⟩ := Nat.dvd_of_mod_eq_zero h.aligned
  have heq : cursor.low = (512 * q + cursor.next) * 2 ^ levelShift cursor.level := by
    rw [Cursor.low, hq, two_pow_levelShift_succ, Nat.add_mul, Nat.mul_right_comm]
  have hdiv : va / 2 ^ levelShift cursor.level = 512 * q + cursor.next :=
    Nat.div_eq_of_lt_le (heq ▸ hlow) (by rw [Nat.succ_mul, ← heq]; exact hhigh)
  refine Fin.ext ?_
  show va / 2 ^ levelShift cursor.level % 512 = cursor.next
  rw [hdiv, Nat.mul_add_mod]
  exact Nat.mod_eq_of_lt hnext

namespace Walk

/-! ## 2. What lies under an entry -/

/-- The mappings among these items lie within the addresses from `low` to before `limit`. -/
def Inside (low limit : Nat) (items : List (Except Fault Mapping)) : Prop :=
  ∀ mapping : Mapping, .ok mapping ∈ items →
    low ≤ mapping.start.bits.toNat ∧ mapping.last.bits.toNat < limit

theorem Inside.filter_eq_nil {low limit va : Nat} {items : List (Except Fault Mapping)}
    (h : Inside low limit items) (hva : va < low ∨ limit ≤ va) :
    items.filter (itemCovers va) = [] := by
  refine List.filter_eq_nil_iff.mpr fun item hmem => ?_
  cases item with
  | error fault => exact Bool.false_ne_true
  | ok mapping =>
    obtain ⟨hstart, hlast⟩ := h mapping hmem
    simp only [itemCovers, Mapping.covers, decide_eq_true_eq]
    omega

variable {target : Target}

section Inside

variable {below : PAddr → VAddr → List (Except Fault Mapping)} {cursor : Cursor}
  (hbelow : ∀ address start, Placed cursor.level start →
    Inside start.bits.toNat (start.bits.toNat + 2 ^ levelShift cursor.level) (below address start))
  (h : Placed (cursor.level + 1) cursor.base)

include hbelow h

theorem row_inside (hnext : cursor.next < entriesPerTable) (kind : Entry.Kind) :
    Inside cursor.low (cursor.low + 2 ^ levelShift cursor.level) (row below cursor kind) := by
  cases kind with
  | invalid => exact fun _ hmem => absurd hmem List.not_mem_nil
  | table address =>
    rw [← h.toNat_start hnext]
    exact hbelow address cursor.start (h.inner hnext)
  | leaf physical flags =>
    intro mapping hmem
    obtain ⟨hstart, hlast⟩ := h.mapping hnext physical flags
    cases List.mem_singleton.mp hmem
    exact ⟨Nat.le_of_eq hstart.symm, by omega⟩

theorem rows_inside : Inside cursor.low cursor.limit (rows below cursor) := by
  fun_induction rows below cursor with
  | case1 cursor hnext ih =>
    intro mapping hmem
    have hle := Cursor.low_next_le hnext
    have hpassed := Cursor.low_passed cursor
    have hpos : 0 < 2 ^ levelShift cursor.level := Nat.two_pow_pos _
    rcases List.mem_append.mp hmem with hmem | hmem
    · obtain ⟨hstart, hlast⟩ := row_inside hbelow h hnext _ mapping hmem
      exact ⟨hstart, by omega⟩
    · obtain ⟨hstart, hlast⟩ := ih hbelow h mapping hmem
      exact ⟨by omega, hlast⟩
  | case2 => exact fun _ hmem => absurd hmem List.not_mem_nil

end Inside

/-- **What lies under a table lies within its memory.** -/
theorem tree_inside (target : Target) (levels : Nat) (address : PAddr) (base : VAddr)
    (h : Placed levels base) :
    Inside base.bits.toNat (base.bits.toNat + 2 ^ levelShift levels)
      (tree target levels address base) := by
  induction levels generalizing address base with
  | zero => exact fun _ hmem => absurd hmem List.not_mem_nil
  | succ level ih =>
    cases hread : Table.read target address with
    | error fault =>
      rw [tree_fault hread]
      intro mapping hmem
      cases List.mem_singleton.mp hmem
    | ok table =>
      have hinside : Inside (Cursor.atStart table level base).low _
          (rows (tree target level) (.atStart table level base)) := rows_inside ih h
      rw [Cursor.low_atStart] at hinside
      rw [tree_read hread]
      exact hinside

/-! ## 3. The one entry to follow -/

/-- These items are one mapping for the leaf that was found, and none if none was. -/
def Shows (va : Nat) (items : List (Except Fault Mapping)) : Option Leaf → Prop
  | none => items = []
  | some leaf => ∃ mapping, items = [.ok mapping] ∧ leaf.Maps va mapping

theorem filter_row {cursor : Cursor} {va : Nat} (h : Placed (cursor.level + 1) cursor.base)
    (hnext : cursor.next < entriesPerTable) (hlow : cursor.low ≤ va)
    (hhigh : va < cursor.low + 2 ^ levelShift cursor.level)
    (hbelow : ∀ address, Shows va ((tree target cursor.level address cursor.start).filter
      (itemCovers va)) (lookup target va cursor.level address)) (kind : Entry.Kind) :
    Shows va ((row (tree target cursor.level) cursor kind).filter (itemCovers va))
      (lookupUnder target va cursor.level kind) := by
  cases kind with
  | invalid => rfl
  | table address => exact hbelow address
  | leaf physical flags =>
    obtain ⟨hstart, hlast⟩ := h.mapping hnext physical flags
    have hmod : va % 2 ^ levelShift cursor.level = va - cursor.low := by
      obtain ⟨q, hq⟩ := Nat.dvd_of_mod_eq_zero h.low_aligned
      rw [show va = 2 ^ levelShift cursor.level * q + (va - cursor.low) by omega,
        Nat.mul_add_mod, Nat.mod_eq_of_lt (by omega)]
      omega
    have hcovers : itemCovers va (.ok (cursor.mapping physical flags)) = true := by
      simp only [itemCovers, Mapping.covers, decide_eq_true_eq]
      omega
    refine ⟨cursor.mapping physical flags, ?_, ?_, ?_, rfl, rfl⟩
    · rw [row, List.filter_cons_of_pos hcovers, List.filter_nil]
    · show _ = va - va % 2 ^ levelShift cursor.level
      omega
    · show _ = _ + 2 ^ levelShift cursor.level - 1
      omega

/-- **Of all that lies under a table, only the leaf that is looked up covers the address.** -/
theorem filter_tree (target : Target) {va : Nat} (levels : Nat) (address : PAddr) (base : VAddr)
    (h : Placed levels base) (hlow : base.bits.toNat ≤ va)
    (hhigh : va < base.bits.toNat + 2 ^ levelShift levels) :
    Shows va ((tree target levels address base).filter (itemCovers va))
      (lookup target va levels address) := by
  induction levels generalizing address base with
  | zero => rfl
  | succ level ih =>
    cases hread : Table.read target address with
    | error fault =>
      rw [tree_fault hread, lookup, hread]
      rfl
    | ok table =>
      rw [tree_read hread, lookup_read hread]
      -- the entries before the one to follow are passed, those behind it are left over
      have hrows : ∀ cursor : Cursor, cursor.level = level → cursor.table = table →
          Placed (cursor.level + 1) cursor.base → cursor.low ≤ va → va < cursor.limit →
          Shows va ((rows (tree target level) cursor).filter (itemCovers va))
            (lookupUnder target va level (table.entries.get (pageIndex level va)).kind) := by
        intro cursor
        fun_induction rows (tree target level) cursor with
        | case1 cursor hnext ihrows =>
          rintro rfl rfl hplaced hlow hhigh
          have hpassed := Cursor.low_passed cursor
          rw [List.filter_append]
          by_cases hhere : va < cursor.low + 2 ^ levelShift cursor.level
          · have hbehind : Inside cursor.passed.low cursor.limit
                (rows (tree target cursor.level) cursor.passed) :=
              rows_inside (tree_inside target cursor.level) hplaced
            rw [hbehind.filter_eq_nil (.inl (by omega)), List.append_nil,
              pageIndex_eq hplaced hnext hlow hhere]
            refine filter_row hplaced hnext hlow hhere (fun address => ?_) _
            have hstart := hplaced.toNat_start hnext
            exact ih address cursor.start (hplaced.inner hnext) (by omega) (by omega)
          · have hbefore := row_inside (tree_inside target cursor.level) hplaced hnext
              (cursor.kind hnext)
            rw [hbefore.filter_eq_nil (.inr (by omega)), List.nil_append]
            exact ihrows rfl rfl hplaced (by omega) hhigh
        | case2 cursor hend =>
          intro _ _ _ hlow hhigh
          have := Cursor.limit_le_low (Nat.le_of_not_lt hend)
          omega
      refine hrows (.atStart table level base) rfl rfl h ?_ hhigh
      rw [Cursor.low_atStart]
      exact hlow

/-! ## 4. The whole walk -/

/-- The mappings that cover an address, of those that the walk gives. -/
theorem filter_covers {root : PAddr} {mappings : List Mapping}
    (htree : tree target tableLevels root ⟨0⟩ = mappings.map .ok) {va : Nat} (hva : va < 2 ^ 39) :
    Shows va ((mappings.filter (Mapping.covers va)).map .ok) (translate target root va) := by
  have hshows := filter_tree target tableLevels root ⟨0⟩ .root (Nat.zero_le va)
    (show va < 0 + 2 ^ 39 by omega)
  rwa [htree, List.filter_map] at hshows

/-- **The walk and the look-up agree.** Of a page table that can all be read, the walk gives
    mappings and no fault. If the look-up of an address below bit 39 ends in a leaf, one mapping
    alone covers that address, and it is the leaf's; if one mapping alone covers the address, the
    look-up ends in its leaf; and if the look-up fails, none covers it. No mapping reaches
    bit 39. -/
theorem covers_translation (target : Target) (root : PAddr) (hreadable : Readable target root) :
    ∃ mappings : List Mapping,
      Traversal.stream target (Walk.unread root) = mappings.map .ok ∧
      (∀ va, va < 2 ^ 39 →
        (∀ leaf, translate target root va = some leaf →
          ∃ mapping, mappings.filter (Mapping.covers va) = [mapping] ∧ leaf.Maps va mapping) ∧
        (∀ mapping, mappings.filter (Mapping.covers va) = [mapping] →
          ∃ leaf, translate target root va = some leaf ∧ leaf.Maps va mapping) ∧
        (translate target root va = none → mappings.filter (Mapping.covers va) = [])) ∧
      ∀ mapping ∈ mappings, ∀ va, mapping.covers va → va < 2 ^ 39 := by
  obtain ⟨mappings, htree, hstream⟩ := stream_readable hreadable
  refine ⟨mappings, hstream, fun va hva => ?_, fun mapping hmem va hcovers => ?_⟩
  · have hshows := filter_covers htree hva
    cases htranslate : translate target root va with
    | none =>
      rw [htranslate] at hshows
      have hnil := List.map_eq_nil_iff.mp hshows
      refine ⟨fun _ h => ?_, fun mapping h => ?_, fun _ => hnil⟩
      · cases h
      · rw [hnil] at h
        cases h
    | some leaf =>
      rw [htranslate] at hshows
      obtain ⟨found, hmap, hleaf⟩ := hshows
      obtain ⟨mapping, hfilter, hfound⟩ := List.map_eq_singleton_iff.mp hmap
      cases hfound
      refine ⟨fun leaf' h => ?_, fun mapping h => ?_, fun h => ?_⟩
      · cases h
        exact ⟨found, hfilter, hleaf⟩
      · rw [hfilter] at h
        cases h
        exact ⟨leaf, rfl, hleaf⟩
      · cases h
  · have hitem : .ok mapping ∈ tree target tableLevels root ⟨0⟩ := by
      rw [htree]
      exact List.mem_map_of_mem hmem
    have hlast : mapping.last.bits.toNat < 0 + 2 ^ 39 :=
      (tree_inside target tableLevels root ⟨0⟩ .root mapping hitem).2
    simp only [Mapping.covers, decide_eq_true_eq] at hcovers
    omega

/-- In the kernel whose tables all point at themselves an address is looked up through three tables,
    and its page is what the walk gives. -/
theorem covers_mirrored :
    Readable (.mirrored 0xCF) ⟨0x1000⟩ ∧
      translate (.mirrored 0xCF) ⟨0x1000⟩ 0x40200123 = some ⟨0, 0, 0xCF⟩ ∧
      ∃ mappings : List Mapping,
        Traversal.stream (.mirrored 0xCF) (Walk.unread ⟨0x1000⟩) = mappings.map .ok ∧
        ∃ mapping, mappings.filter (Mapping.covers 0x40200123) = [mapping] ∧
          Leaf.Maps ⟨0, 0, 0xCF⟩ 0x40200123 mapping := by
  have hreadable : Readable (.mirrored 0xCF) ⟨0x1000⟩ := readable_ofTables _ _
  have htranslate : translate (.mirrored 0xCF) ⟨0x1000⟩ 0x40200123 = some ⟨0, 0, 0xCF⟩ := by
    simp only [translate, Target.mirrored, lookup_ofTables]
    rfl
  obtain ⟨mappings, hstream, hagree, _⟩ := covers_translation (.mirrored 0xCF) ⟨0x1000⟩ hreadable
  exact ⟨hreadable, htranslate, mappings, hstream, (hagree 0x40200123 (by decide)).1 _ htranslate⟩

end Walk

end KernelProbe
